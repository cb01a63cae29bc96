import BenchScript.Proofs.Reports
import Mathlib.Data.List.Basic

set_option autoImplicit false

namespace BenchScript

namespace Passage

def isFileCall : Passage → Bool
  | .readFile _ _ | .appended _ _ _ => true
  | _ => false

def isFileFault : Passage → Bool
  | .readFile _ (.error _) | .appended _ _ (.error _) => true
  | _ => false

def appended? : Passage → Option (Text × Text)
  | .appended path line (.ok ()) => some (path, line)
  | _ => none

theorem isFileCall_of_isCallback {p : Passage} (h : p.isCallback = true) :
    p.isFileCall = false := by
  cases p <;> first | rfl | cases h

theorem isFileCall_of_isTraffic {p : Passage} (h : p.isTraffic = true) : p.isFileCall = false := by
  cases p <;> first | rfl | cases h

theorem isFileCall_of_isFileFault {p : Passage} (h : p.isFileFault = true) :
    p.isFileCall = true := by
  cases p <;> first | rfl | cases h

theorem appended?_of_not_isFileCall {p : Passage} (h : p.isFileCall = false) :
    p.appended? = none := by
  cases p <;> first | rfl | cases h

end Passage

def fileCallsIn (passed : List Passage) : List Passage := passed.filter Passage.isFileCall

theorem fileCallsIn_append (passed passed' : List Passage) :
    fileCallsIn (passed ++ passed') = fileCallsIn passed ++ fileCallsIn passed' :=
  List.filter_append passed passed'

theorem fileCallsIn_eq_nil {passed : List Passage} (h : ∀ p ∈ passed, p.isFileCall = false) :
    fileCallsIn passed = [] := by
  unfold fileCallsIn
  rw [List.filter_eq_nil_iff]
  intro p hp
  rw [h p hp]
  exact Bool.false_ne_true

def appendedIn (passed : List Passage) : List (Text × Text) := passed.filterMap Passage.appended?

theorem appendedIn_append (passed passed' : List Passage) :
    appendedIn (passed ++ passed') = appendedIn passed ++ appendedIn passed' :=
  List.filterMap_append

theorem appendedIn_of_isCallback {passed : List Passage}
    (h : ∀ p ∈ passed, p.isCallback = true) : appendedIn passed = [] :=
  List.filterMap_eq_nil_iff.2 fun p hp =>
    Passage.appended?_of_not_isFileCall (Passage.isFileCall_of_isCallback (h p hp))

theorem appendedIn_fileCallsIn (passed : List Passage) :
    appendedIn (fileCallsIn passed) = appendedIn passed := by
  unfold appendedIn fileCallsIn
  rw [List.filterMap_filter]
  congr 1
  funext p
  cases p <;> rfl

namespace Workspace

variable {ε : Type} [Environment ε] {settings : Settings} {command : Command}
  {w : Workspace (Recorded ε)} {passed : List Passage} {message : Text}
  {outcome : Verdict × Workspace (Recorded ε)} {p : Passage}

theorem Mishap.eq_singleton (h : w.Mishap settings command passed message) (hp : p ∈ passed) :
    passed = [p] := by
  cases h with
  | lineless _ h =>
    cases h with
    | unnamed => cases hp
    | unreadable => rw [List.mem_singleton.1 hp]
  | unnamed => cases hp
  | unwritten => rw [List.mem_singleton.1 hp]

theorem Mishap.appended?_eq_none (h : w.Mishap settings command passed message) :
    ∀ p ∈ passed, p.appended? = none := by
  cases h with
  | lineless _ h =>
    cases h with
    | unnamed => exact List.forall_mem_nil _
    | unreadable => simp [Passage.appended?]
  | unnamed => exact List.forall_mem_nil _
  | unwritten => simp [Passage.appended?]

/-- Only in a mishap does a call on the file store fail, and it is the only one. -/
theorem Effect.exists_mishap (h : w.Effect settings command passed outcome) (hp : p ∈ passed)
    (hf : p.isFileFault = true) : ∃ message, w.Mishap settings command [p] message := by
  have htalk (ht : p.isTraffic = true) : False := by
    have hnone := Passage.isFileCall_of_isTraffic ht
    rw [Passage.isFileCall_of_isFileFault hf] at hnone
    cases hnone
  cases h with
  | decided => cases hp
  | told | asked =>
    rw [List.mem_singleton.1 hp] at hf
    cases hf
  | talked _ h _ => exact (htalk (h.traffic p hp)).elim
  | dictated _ _ h _ =>
    rcases List.mem_cons.1 hp with rfl | hp
    · cases hf
    · exact (htalk (h.traffic p hp)).elim
  | mishap h _ =>
    rcases List.mem_append.1 hp with hp | hp
    · rw [h.eq_singleton hp] at h
      exact ⟨_, h⟩
    · rw [List.mem_singleton.1 hp] at hf
      cases hf
  | appended =>
    rw [List.mem_singleton.1 hp] at hf
    cases hf

theorem Effect.fares {w' : Workspace (Recorded ε)}
    (h : w.Effect settings command passed (.stop (.failed message), w')) :
    w'.Fares command (.stop (.failed message)) := by
  cases h with
  | decided _ hf => exact hf message rfl
  | talked _ _ hv | dictated _ _ _ hv => exact hv

def written? (settings : Settings) (command : Command) (w : Workspace ε) : Option (Text × Text) :=
  match command.action, command.output? settings.defaultOutput with
  | .append, some path =>
    match (FileStore.appendLine path w.lastRow w.around).1 with
    | .ok () => some (path, w.lastRow)
    | .error _ => none
  | _, _ => none

theorem written?_of_action_ne (h : command.action ≠ .append) (settings : Settings)
    (w : Workspace ε) : w.written? settings command = none := by
  unfold written?
  split
  · next ha _ => exact absurd ha h
  · rfl

theorem Effect.appendedIn_eq_nil (h : w.Effect settings command passed outcome)
    (ha : command.action ≠ .append) : appendedIn passed = [] := by
  apply List.filterMap_eq_nil_iff.2
  intro p hp
  have htalk (ht : p.isTraffic = true) : p.appended? = none :=
    Passage.appended?_of_not_isFileCall (Passage.isFileCall_of_isTraffic ht)
  cases h with
  | decided => cases hp
  | told | asked =>
    rw [List.mem_singleton.1 hp]
    rfl
  | talked _ h _ => exact htalk (h.traffic p hp)
  | dictated _ _ h _ =>
    rcases List.mem_cons.1 hp with rfl | hp
    · rfl
    · exact htalk (h.traffic p hp)
  | mishap h _ =>
    rcases List.mem_append.1 hp with hp | hp
    · exact h.appended?_eq_none p hp
    · rw [List.mem_singleton.1 hp]
      rfl
  | appended hw => exact absurd hw ha

/-- What an append leaves in the record is what was written. -/
theorem appendedIn_perform (settings : Settings) (ha : command.action = .append)
    (w : Workspace (Recorded ε)) :
    ∃ (passed : List Passage) (w' : Workspace (Recorded ε)),
      w.perform settings command = (.next, w') ∧
      w'.around.record = w.around.record ++ passed ∧
      appendedIn passed = (w.written? settings command).toList := by
  cases hp : command.output? settings.defaultOutput with
  | none =>
    have hmishap : w.Mishap settings command [] _ := .unnamed ha hp
    obtain ⟨cancel, around, hrecord, hperform⟩ := perform_of_mishap settings hmishap
    refine ⟨_, _, hperform, hrecord, ?_⟩
    unfold written?
    rw [ha, hp]
    rfl
  | some path =>
    cases h : (FileStore.appendLine path w.lastRow w.around).1 with
    | error cause =>
      have hmishap : w.Mishap settings command _ _ := .unwritten ha hp h
      obtain ⟨cancel, around, hrecord, hperform⟩ := perform_of_mishap settings hmishap
      refine ⟨_, _, hperform, hrecord, ?_⟩
      unfold written?
      simp only [ha, hp, h]
      rfl
    | ok =>
      obtain ⟨around, hrecord, hperform⟩ := perform_of_appended settings ha hp h
      refine ⟨_, _, hperform, hrecord, ?_⟩
      unfold written?
      simp only [ha, hp, h]
      rfl

end Workspace

namespace Engine

variable {ε : Type}

theorem fetches_of_fetched? {m : Engine ε} {top : Invocation} {command : Command}
    (h : m.fetched? = some (top, command)) : ∃ below, m.Fetches top below command := by
  unfold fetched? at h
  split at h
  · cases h
  · next hn =>
    have hfree : m.workspace.cancelled = false ∧ m.quit = false := by simpa using hn
    split at h
    · cases h
    · next top' below hs =>
      obtain ⟨command', hc, heq⟩ := Option.map_eq_some_iff.1 h
      cases heq
      exact ⟨below, hfree.1, hfree.2, hs, hc⟩

theorem fetches_of_carried? {m : Engine ε} {command : Command} (h : m.carried? = some command) :
    ∃ top below, m.Fetches top below command ∧ admits top command = true := by
  unfold carried? at h
  split at h
  · next top command' hfetched =>
    split at h
    · next hg =>
      cases h
      obtain ⟨below, hf⟩ := fetches_of_fetched? hfetched
      exact ⟨top, below, hf, hg⟩
    · cases h
  · cases h

variable [Environment ε] {m m' e e' : Engine (Recorded ε)} {command : Command}
  {passed : List Passage} {message : Text}

open Workspace

theorem step_of_next {top : Invocation} {below : List Invocation} {w : Workspace (Recorded ε)}
    (hf : m.Fetches top below command) (hg : admits top command = true)
    (ha : command.action ≠ .condition)
    (hp : m.workspace.perform m.settings command = (.next, w)) :
    m.step = .going ((m.past top below w).observe command) := by
  rw [step_of_fetches hf (gateOpen_of_admits hg ha), hp]
  rfl

theorem exists_observe (command : Command) (e : Engine (Recorded ε)) :
    ∃ cancel, (e.observe command).record
        = e.record ++ [.observed ⟨command.line, e.workspace.lastRow, e.workspace.lastData⟩ cancel] ∧
      (e.observe command).workspace.cancelled = (e.workspace.cancelled || cancel) :=
  ⟨_, rfl, rfl⟩

/-- The step of a command with a mishap. The host is warned and then hears of the command; nothing
else comes of it but that the command is behind, and the run goes on with the next one. -/
structure Overcomes (m : Engine (Recorded ε)) (command : Command) (passed : List Passage)
    (message : Text) (m' : Engine (Recorded ε)) : Prop where
  step : m.step = .going m'
  passes : ∃ cancel cancel', since m m' = passed ++ [.notified ⟨.warning, message, false⟩ cancel,
      .observed ⟨command.line, m.workspace.lastRow, m.workspace.lastData⟩ cancel'] ∧
    m'.workspace.cancelled = (cancel || cancel')
  kept : ∃ top below, m.stack = top :: below ∧ m' = { m with
    workspace := { m.workspace with
      around := m'.workspace.around, cancelled := m'.workspace.cancelled }
    stack := { top with position := top.position + 1 } :: below }

theorem exists_overcomes (hc : m.carried? = some command)
    (h : m.workspace.Mishap m.settings command passed message) :
    ∃ m', m.Overcomes command passed message m' := by
  obtain ⟨top, below, hf, hg⟩ := fetches_of_carried? hc
  obtain ⟨cancel, around, hrecord, hperform⟩ := perform_of_mishap m.settings h
  have haction : command.action ≠ .condition := by
    cases h with
    | lineless ha | unnamed ha | unwritten ha => simp [ha]
  obtain ⟨cancel', hobserved, hflag⟩ := exists_observe command (m.past top below
    { m.workspace with around, cancelled := m.workspace.cancelled || cancel })
  have hbehind : Engine.record (m.past top below
      { m.workspace with around, cancelled := m.workspace.cancelled || cancel })
      = m.record ++ (passed ++ [.notified ⟨.warning, message, false⟩ cancel]) := hrecord
  refine ⟨_, step_of_next hf hg haction hperform, ⟨cancel, cancel', since_eq_of_record ?_, ?_⟩,
    top, below, hf.stack, rfl⟩
  · rw [hobserved, hbehind, List.append_assoc, List.append_assoc]
    rfl
  · rw [hflag]
    simp [past, hf.uncancelled]

theorem exists_mishap_of_isFileFault {p : Passage} (hp : p ∈ since m m.step.left)
    (hf : p.isFileFault = true) :
    ∃ command message, m.carried? = some command ∧
      m.workspace.Mishap m.settings command [p] message := by
  obtain ⟨effects, heard, hpassed, hheard, heffects⟩ := m.happens_step.exists_parts
  rw [hpassed] at hp
  rcases List.mem_append.1 hp with hp | hp
  · rcases heffects with rfl | ⟨command, outcome, hc, he⟩
    · cases hp
    · obtain ⟨message, hmishap⟩ := he.exists_mishap hp hf
      exact ⟨command, message, hc, hmishap⟩
  · have hnone := Passage.isFileCall_of_isCallback (hheard p hp)
    rw [Passage.isFileCall_of_isFileFault hf] at hnone
    cases hnone

/-- An error that ends a run is not about a file. -/
theorem exists_error_of_failed {left : Engine (Recorded ε)}
    (h : m.step = .halted (.ended (.failed message)) left) :
    ∃ command w error, m.carried? = some command ∧
      m.workspace.perform m.settings command = (.stop (.failed message), w) ∧
      message = w.blame command error ∧ error.isFile = false := by
  have move := m.move_step
  rw [h] at move
  cases move with
  | @stops top below command _ w hf hg _ _ hp =>
    obtain ⟨passed, heffect⟩ := effect_perform m.settings command m.workspace
    rw [hp] at heffect
    obtain hnext | ⟨error, hfile, hstop⟩ := heffect.fares
    · cases hnext
    · cases hstop
      exact ⟨command, w, error, hf.carried?_of_admits hg, hp, rfl, hfile⟩

def written? (m : Engine (Recorded ε)) : Option (Text × Text) :=
  m.carried?.bind fun command => m.workspace.written? m.settings command

theorem written?_of_carried? (hc : m.carried? = some command) :
    m.written? = m.workspace.written? m.settings command := by
  unfold written?
  rw [hc]
  rfl

theorem appendedIn_since_of_append (hc : m.carried? = some command)
    (ha : command.action = .append) :
    appendedIn (since m m.step.left) = m.written?.toList := by
  obtain ⟨top, below, hf, hg⟩ := fetches_of_carried? hc
  obtain ⟨passed, w, hperform, hrecord, hwritten⟩ :=
    appendedIn_perform m.settings ha m.workspace
  obtain ⟨cancel, hobserved, -⟩ := exists_observe command (m.past top below w)
  have hsince : since m ((m.past top below w).observe command)
      = passed ++ [.observed ⟨command.line, w.lastRow, w.lastData⟩ cancel] := by
    apply since_eq_of_record
    have hbehind : (m.past top below w).record = m.record ++ passed := hrecord
    rw [hobserved, hbehind, List.append_assoc]
    rfl
  rw [step_of_next hf hg (by simp [ha]) hperform, Progress.left, hsince, appendedIn_append,
    written?_of_carried? hc, hwritten]
  exact List.append_nil _

/-- What a step appends is what its command wrote. -/
theorem appendedIn_since_step (m : Engine (Recorded ε)) :
    appendedIn (since m m.step.left) = m.written?.toList := by
  by_cases happend : ∃ command, m.carried? = some command ∧ command.action = .append
  · obtain ⟨command, hc, ha⟩ := happend
    exact appendedIn_since_of_append hc ha
  · have hnone : m.written? = none := by
      unfold written?
      cases hc : m.carried? with
      | none => rfl
      | some command =>
        exact written?_of_action_ne (fun ha => happend ⟨command, hc, ha⟩) m.settings m.workspace
    obtain ⟨effects, heard, hpassed, hheard, heffects⟩ := m.happens_step.exists_parts
    rw [hnone, hpassed, appendedIn_append, appendedIn_of_isCallback hheard]
    rcases heffects with rfl | ⟨command, outcome, hc, he⟩
    · rfl
    · rw [he.appendedIn_eq_nil fun ha => happend ⟨command, hc, ha⟩]
      rfl

def fileCallsOf (visited : List (Engine (Recorded ε))) : List Passage :=
  visited.flatMap fun m => fileCallsIn (since m m.step.left)

theorem fileCallsIn_carryOn (start : Engine (Recorded ε)) :
    fileCallsIn (since start start.carryOn.2) = fileCallsOf start.course := by
  unfold fileCallsOf
  fun_induction carryOn start with
  | case1 m e' h ih =>
    have hrecord : m.record <+: e'.record := record_of_stretch (stretch_going h)
    rw [since_trans hrecord (record_le_carryOn e'), fileCallsIn_append, ih, course_of_going h,
      List.flatMap_cons, h]
    rfl
  | case2 m standing e' h =>
    rw [course_of_halted h, List.flatMap_singleton, h]
    rfl

/-- In what is left of a run the file store is called in its steps and nowhere else. -/
structure FileLedger (e : Engine (Recorded ε)) (visited : List (Engine (Recorded ε)))
    (after : Engine (Recorded ε)) : Prop where
  grown : e.record <+: after.record
  fileCalls : fileCallsIn (since e after) = fileCallsOf visited

variable {start after : Engine (Recorded ε)} {visited : List (Engine (Recorded ε))}

theorem FileLedger.before (hrecord : start.record = e.record ++ passed)
    (hnone : ∀ p ∈ passed, p.isFileCall = false) (h : FileLedger start visited after) :
    FileLedger e visited after := by
  have hgrown : e.record <+: start.record := ⟨passed, hrecord.symm⟩
  refine ⟨hgrown.trans h.grown, ?_⟩
  rw [since_trans hgrown h.grown, fileCallsIn_append, since_eq_of_record hrecord,
    fileCallsIn_eq_nil hnone, List.nil_append, h.fileCalls]

/-- A leg goes in front. -/
theorem FileLedger.leg (h : FileLedger start.carryOn.2 visited after) :
    FileLedger start (start.course ++ visited) after := by
  have hcarried := record_le_carryOn start
  refine ⟨hcarried.trans h.grown, ?_⟩
  rw [since_trans hcarried h.grown, fileCallsIn_append, fileCallsIn_carryOn, h.fileCalls,
    fileCallsOf, fileCallsOf, fileCallsOf, List.flatMap_append]

theorem UnderWay.fileLedger (he : e.Settled) {calls : List Call} (h : e.UnderWay calls) :
    FileLedger e (e.courseOfAll calls) (e.callAll calls).2 := by
  refine UnderWay.induction (motive := fun e visited _ after => FileLedger e visited after)
    ?_ ?_ ?_ he h
  · intro e _
    refine ⟨List.prefix_refl _, ?_⟩
    rw [since_self]
    rfl
  · intro e call workspace visited replies after hs hne heq _ _ ih
    obtain ⟨passed, hrecord, htraffic, -⟩ := call_apart_talks hs.isWaiting hne
    rw [heq] at hrecord
    exact ih.before hrecord fun p hp => Passage.isFileCall_of_isTraffic (htraffic p hp)
  · intro e command input visited replies after _ _ _ ih
    exact ih.leg.before rfl (by simp [Passage.isFileCall])

theorem fileLedger_run {routine : Text} {rest : List Call} (h : e.IsRun (.run routine :: rest)) :
    FileLedger e (e.courseOfAll (.run routine :: rest)) (e.callAll (.run routine :: rest)).2 := by
  refine IsRun.induction (motive := fun visited _ after => FileLedger e visited after) h ?_ ?_
  · obtain ⟨cancel, hcalled⟩ := called_finish e.begun (.routineNotFound routine)
    have hrecord : (e.begun.finish (.routineNotFound routine)).2.record
        = e.record ++ (Ending.routineNotFound routine).reportedAs cancel := hcalled.passes.record
    refine ⟨⟨_, hrecord.symm⟩, ?_⟩
    rw [since_eq_of_record hrecord]
    rfl
  · intro start hstart heq hway
    have hrecord : start.record = e.record ++ [] := by
      rw [heq, List.append_nil]
      rfl
    exact (hway.fileLedger hstart.stands.settled).leg.before hrecord (List.forall_mem_nil _)

theorem IsRun.fileLedger {calls : List Call} (h : e.IsRun calls) :
    FileLedger e (e.courseOfAll calls) (e.callAll calls).2 := by
  obtain ⟨routine, rest, hrun, hcourse, -, hend⟩ := h.exists_run
  have hledger := fileLedger_run hrun
  rw [hcourse]
  rcases hend with ⟨-, heq⟩ | ⟨-, -, -, heq⟩
  · rw [heq]
    exact hledger
  · obtain ⟨cancel, hrecord⟩ := exists_record_abandon (e.callAll (.run routine :: rest)).2
    have hlast : (e.callAll (.run routine :: rest)).2.record
        <+: (e.callAll (.run routine :: rest)).2.abandon.record := ⟨_, hrecord.symm⟩
    rw [heq]
    refine ⟨hledger.grown.trans hlast, ?_⟩
    rw [since_trans hledger.grown hlast, fileCallsIn_append, since_eq_of_record hrecord,
      hledger.fileCalls]
    exact List.append_nil _

theorem appendedIn_fileCallsOf (visited : List (Engine (Recorded ε))) :
    appendedIn (fileCallsOf visited) = visited.filterMap written? := by
  rw [List.filterMap_eq_flatMap_toList]
  unfold fileCallsOf
  induction visited with
  | nil => rfl
  | cons m rest ih =>
    rw [List.flatMap_cons, List.flatMap_cons, appendedIn_append, ih, appendedIn_fileCallsIn,
      appendedIn_since_step]

/-- A run that failed did not fail for a file. -/
theorem IsRun.exists_error {calls : List Call} (h : e.IsRun calls)
    (hend : .failed message ∈ (e.callAll calls).1.filterMap Reply.ending?) :
    ∃ m ∈ e.courseOfAll calls, ∃ command w error, m.carried? = some command ∧
      m.workspace.perform m.settings command = (.stop (.failed message), w) ∧
      message = w.blame command error ∧ error.isFile = false := by
  rcases h.reported.caused _ hend with hcancelled | ⟨-, routine, habsent⟩ | ⟨m, hm, -, hhalted⟩
  · cases hcancelled
  · cases habsent
  · exact ⟨m, hm, exists_error_of_failed hhalted⟩

end Engine
end BenchScript
