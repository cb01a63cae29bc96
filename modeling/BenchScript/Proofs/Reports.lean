import BenchScript.Proofs.Cancellation
import BenchScript.Proofs.Happenings

set_option autoImplicit false

/-!
# What the user is told of a run

In a run the user is told of what the commands have to say, is asked the questions that the run
waits at, and is told of the end last. `Hears` is the shape of that from leg to leg. What is said
before the end never looks like a report of it: only the end itself is told as an error or as a
cancellation.
-/
namespace BenchScript

def Passage.note? : Passage → Option Notification
  | .notified note _ => some note
  | _ => none

def notesIn (passed : List Passage) : List Notification := passed.filterMap Passage.note?

theorem notesIn_append (passed passed' : List Passage) :
    notesIn (passed ++ passed') = notesIn passed ++ notesIn passed' := List.filterMap_append

theorem notesIn_eq_nil {passed : List Passage} (h : ∀ p ∈ passed, p.isCallback = false) :
    notesIn passed = [] := by
  unfold notesIn
  rw [List.filterMap_eq_nil_iff]
  intro p hp
  have hquiet := h p hp
  cases p <;> first | rfl | cases hquiet

theorem Passage.isCallback_of_isTraffic {p : Passage} (h : p.isTraffic = true) :
    p.isCallback = false := by
  cases p <;> first | rfl | cases h

/-- A notification that neither asks for anything nor could be taken for the report of an end. -/
structure Notification.IsPlain (note : Notification) : Prop where
  severity : note.severity ≠ .error
  requiresInput : note.requiresInput = false
  ne_cancelled : note ≠ cancelledNote

theorem Notification.isPlain_of_isRemark {note : Notification} (h : note.isRemark = true) :
    note.IsPlain := by
  unfold isRemark at h
  simp only [Bool.and_eq_true, Bool.or_eq_true, beq_iff_eq, Bool.not_eq_true'] at h
  obtain ⟨hseverity, hinput⟩ := h
  refine ⟨?_, hinput, ?_⟩
  · rcases hseverity with heq | heq <;> simp [heq]
  · rintro rfl
    rcases hseverity with heq | heq <;> cases heq

def Standing.notes : Standing → List Notification
  | .waiting prompt => [.prompt prompt]
  | .ended ending => ending.report?.toList

/-- What the user is told of a run that ended so: nothing but an end that is not meant is told as an
error, and a cancellation as such, once and last. -/
def Ending.IsReportedIn (notes : List Notification) : Ending → Prop
  | .completed | .quit => ∀ note ∈ notes, note.severity ≠ .error
  | .cancelled => ∃ before, notes = before ++ [cancelledNote] ∧
      ∀ note ∈ before, note.severity ≠ .error ∧ note ≠ cancelledNote
  | ending => ∃ before, notes = before ++ [⟨.error, ending.text, false⟩] ∧
      ∀ note ∈ before, note.severity ≠ .error

theorem notesIn_reportedAs (ending : Ending) (cancel : Bool) :
    notesIn (ending.reportedAs cancel) = ending.report?.toList := by
  unfold Ending.reportedAs
  cases ending.report? <;> rfl

namespace Workspace

variable {ε : Type} [Environment ε] {settings : Settings} {command : Command}
  {w : Workspace (Recorded ε)} {passed : List Passage} {message : Text}
  {outcome : Verdict × Workspace (Recorded ε)}

theorem Mishap.isCallback (h : w.Mishap settings command passed message) :
    ∀ p ∈ passed, p.isCallback = false := by
  cases h with
  | lineless _ h =>
    cases h with
    | unnamed => exact List.forall_mem_nil _
    | unreadable => simp [Passage.isCallback]
  | unnamed => exact List.forall_mem_nil _
  | unwritten => simp [Passage.isCallback]

/-- A warning is longer than the report of a cancellation. -/
theorem Mishap.isPlain (h : w.Mishap settings command passed message) :
    Notification.IsPlain ⟨.warning, message, false⟩ := by
  have hfile : ∀ path cause, 9 < (ScriptError.file path cause).message.length := by
    intro path cause
    have hmessage : (ScriptError.file path cause).message
        = "file error on ".toList ++ path ++ ": ".toList ++ cause := rfl
    have hstart : "file error on ".toList.length = 14 := rfl
    rw [hmessage, List.length_append, List.length_append, List.length_append, hstart]
    omega
  have hlength : 9 < message.length := by
    cases h with
    | lineless _ h =>
      cases h with
      | unnamed =>
        have hend : ": no file given".toList.length = 15 := rfl
        rw [List.length_append, hend]
        omega
      | unreadable => exact hfile _ _
    | unnamed =>
      have hend : ": no file given and no default output".toList.length = 37 := rfl
      rw [List.length_append, hend]
      omega
    | unwritten => exact hfile _ _
  refine ⟨nofun, rfl, fun heq => ?_⟩
  have hsame : message.length = 9 := congrArg (fun note => note.message.length) heq
  omega

omit [Environment ε] in
theorem Talked.isCallback {w' : Workspace (Recorded ε)} (h : w.Talked passed w') :
    ∀ p ∈ passed, p.isCallback = false :=
  fun p hp => Passage.isCallback_of_isTraffic (h.traffic p hp)

/-- What a command has to say is plain, unless it asks. -/
theorem Effect.isPlain (h : w.Effect settings command passed outcome)
    (hs : ∀ prompt, outcome.1 ≠ .suspend prompt) : ∀ note ∈ notesIn passed, note.IsPlain := by
  cases h with
  | decided => exact List.forall_mem_nil _
  | told hn =>
    intro note hnote
    rw [List.mem_singleton.1 hnote]
    exact Notification.isPlain_of_isRemark hn
  | asked => exact absurd rfl (hs _)
  | talked _ h _ =>
    rw [notesIn_eq_nil h.isCallback]
    exact List.forall_mem_nil _
  | @dictated contents passed _ _ _ _ _ h _ =>
    have hnone : notesIn (.readFile command.argument (.ok contents) :: passed) = [] :=
      notesIn_eq_nil (List.forall_mem_cons.2 ⟨rfl, h.isCallback⟩)
    rw [hnone]
    exact List.forall_mem_nil _
  | mishap h _ =>
    rw [notesIn_append, notesIn_eq_nil h.isCallback]
    intro note hnote
    rw [List.mem_singleton.1 hnote]
    exact h.isPlain
  | appended => exact List.forall_mem_nil _

/-- A command that ends a run has not called the host. -/
theorem Effect.isCallback {ending : Ending} (h : w.Effect settings command passed outcome)
    (hv : outcome.1 = .stop ending ∨ ∃ name, outcome.1 = .enter name) :
    ∀ p ∈ passed, p.isCallback = false := by
  cases h with
  | decided => exact List.forall_mem_nil _
  | told | asked | mishap | appended => rcases hv with hstop | ⟨name, henter⟩ <;> contradiction
  | talked _ h _ => exact h.isCallback
  | dictated _ _ h _ => exact List.forall_mem_cons.2 ⟨rfl, h.isCallback⟩

theorem Effect.notesIn_of_suspend {prompt : Text} {w' : Workspace (Recorded ε)}
    (h : w.Effect settings command passed (.suspend prompt, w')) :
    notesIn passed = [.prompt prompt] := by
  cases h with
  | decided hs => exact absurd rfl (hs prompt)
  | asked => rfl
  | talked _ _ hv | dictated _ _ _ hv => obtain hnext | ⟨error, -, hstop⟩ := hv <;> contradiction

end Workspace

namespace Engine

variable {ε : Type} [Environment ε] {m e e' start : Engine (Recorded ε)}

open Workspace

theorem isPlain_going (h : m.step = .going e') : ∀ note ∈ notesIn (since m e'), note.IsPlain := by
  have hhappens := happens_going h
  generalize since m e' = passed at hhappens
  cases hhappens with
  | idle _ hp _ =>
    have hnone : notesIn passed = [] := by
      rcases hp with rfl | ⟨observation, cancel, rfl⟩ <;> rfl
    rw [hnone]
    exact List.forall_mem_nil _
  | @done command effects heard verdict w _ _ he hv hp _ =>
    have hnone : notesIn heard = [] := by
      rcases hp with rfl | ⟨cancel, rfl⟩ <;> rfl
    rw [notesIn_append, hnone, List.append_nil]
    refine he.isPlain ?_
    rintro prompt rfl
    rcases hv with hnext | ⟨isOpen, hgate⟩ | ⟨name, henter⟩ <;> contradiction

theorem notesIn_halted {standing : Standing} (h : m.step = .halted standing e') :
    notesIn (since m e') = standing.notes := by
  have hhappens := happens_halted h
  generalize since m e' = passed at hhappens
  cases hhappens with
  | waits _ he _ => exact he.notesIn_of_suspend
  | @ends command effects verdict ending w _ cancel cancel' _ he hv _ _ =>
    rw [notesIn_append, notesIn_eq_nil (he.isCallback hv)]
    exact notesIn_reportedAs ending cancel'
  | finished => exact notesIn_reportedAs _ _

theorem record_le_carryOn (start : Engine (Recorded ε)) :
    start.record <+: start.carryOn.2.record :=
  ⟨_, (record_carryOn start).symm⟩

theorem record_le_of_mem_course (start : Engine (Recorded ε)) :
    ∀ m ∈ start.course, start.record <+: m.record :=
  forall_mem_course (motive := fun m => start.record <+: m.record) (List.prefix_refl _)
    fun _ _ h hs => h.trans (record_of_stretch (stretch_going hs))

/-- A leg says what its commands have to say, and then where the run stands. -/
theorem notesIn_carryOn (start : Engine (Recorded ε)) :
    ∃ before, notesIn (since start start.carryOn.2) = before ++ start.carryOn.1.notes ∧
      ∀ note ∈ before, note.IsPlain := by
  fun_induction carryOn start with
  | case1 m e' h ih =>
    obtain ⟨before, hnotes, hplain⟩ := ih
    have hstep : m.record <+: e'.record := record_of_stretch (stretch_going h)
    refine ⟨notesIn (since m e') ++ before, ?_, ?_⟩
    · rw [since_trans hstep (record_le_carryOn e'), notesIn_append, hnotes, List.append_assoc]
    · intro note hnote
      rcases List.mem_append.1 hnote with hnote | hnote
      · exact isPlain_going h note hnote
      · exact hplain note hnote
  | case2 m standing e' h =>
    exact ⟨[], (notesIn_halted h).trans (List.nil_append _).symm, List.forall_mem_nil _⟩

/-- A leg halts in the last engine of its course. -/
theorem exists_last (start : Engine ε) :
    ∃ earlier last, start.course = earlier ++ [last] ∧
      last.step = .halted start.carryOn.1 start.carryOn.2 := by
  fun_induction carryOn start with
  | case1 m e' h ih =>
    obtain ⟨earlier, last, hcourse, hlast⟩ := ih
    refine ⟨m :: earlier, last, ?_, hlast⟩
    rw [course_of_going h, hcourse]
    rfl
  | case2 m standing e' h => exact ⟨[], m, course_of_halted h, h⟩

/-- So an engine of the course that halts is the last one. -/
theorem eq_last_of_halted {start m left : Engine ε} {standing : Standing} (hm : m ∈ start.course)
    (h : m.step = .halted standing left) :
    start.carryOn = (standing, left) ∧ ∃ earlier, start.course = earlier ++ [m] := by
  fun_induction carryOn start with
  | case1 e e' hgoing ih =>
    rw [course_of_going hgoing] at hm ⊢
    rcases List.mem_cons.1 hm with rfl | hm
    · rw [hgoing] at h
      cases h
    · obtain ⟨hcarried, earlier, hcourse⟩ := ih hm
      exact ⟨hcarried, e :: earlier, congrArg (e :: ·) hcourse⟩
  | case2 e standing' e' hhalted =>
    rw [course_of_halted hhalted] at hm ⊢
    obtain rfl := List.mem_singleton.1 hm
    rw [hhalted] at h
    cases h
    exact ⟨rfl, [], rfl⟩

/-- What the user is told of a run that asks these prompts and ends so, if it has ended. -/
inductive Hears : List Text → List Ending → List Notification → Prop where
  | rests : Hears [] [] []
  | asked {before notes : List Notification} {prompt : Text} {prompts : List Text}
      {endings : List Ending} (hb : ∀ note ∈ before, note.IsPlain)
      (rest : Hears prompts endings notes) :
      Hears (prompt :: prompts) endings (before ++ .prompt prompt :: notes)
  | ended {before : List Notification} (hb : ∀ note ∈ before, note.IsPlain) (ending : Ending) :
      Hears [] [ending] (before ++ ending.report?.toList)

/-- What is left of a run, with what the user is told of it and how it ends. -/
structure Chronicle (e : Engine (Recorded ε)) (visited : List (Engine (Recorded ε)))
    (replies : List Reply) (after : Engine (Recorded ε)) : Prop where
  grown : e.record <+: after.record
  hears : Hears (replies.flatMap Reply.prompts) (replies.filterMap Reply.ending?)
    (notesIn (since e after))
  -- Nothing comes after the engine that the run ends in.
  closing : ∀ m ∈ visited, ∀ ending left, m.step = .halted (.ended ending) left →
    e.record <+: m.record ∧ after = left ∧ replies.filterMap Reply.ending? = [ending] ∧
      ∃ earlier, visited = earlier ++ [m]
  caused : ∀ ending ∈ replies.filterMap Reply.ending?,
    ∃ m ∈ visited, m.OnCourse ∧ m.step = .halted (.ended ending) after

variable {visited : List (Engine (Recorded ε))} {replies : List Reply}
  {after : Engine (Recorded ε)}

def IsOver (e : Engine (Recorded ε)) (visited : List (Engine (Recorded ε)))
    (replies : List Reply) (after : Engine (Recorded ε)) : Prop :=
  e.isWaiting = false → visited = [] ∧ replies = [] ∧ after = e

/-- A leg goes in front of what is left of the run after it. -/
theorem Chronicle.leg (hgrown : e.record <+: start.record) (hquiet : notesIn (since e start) = [])
    (hstart : start.OnCourse) (hover : start.carryOn.2.IsOver visited replies after)
    (h : Chronicle start.carryOn.2 visited replies after) :
    Chronicle e (start.course ++ visited) (.standing start.carryOn.1 :: replies) after := by
  obtain ⟨before, hnotes, hplain⟩ := notesIn_carryOn start
  have hcarried := record_le_carryOn start
  have hall : notesIn (since e after)
      = before ++ (start.carryOn.1.notes ++ notesIn (since start.carryOn.2 after)) := by
    rw [since_trans hgrown (hcarried.trans h.grown), since_trans hcarried h.grown, notesIn_append,
      notesIn_append, hquiet, hnotes, List.nil_append, List.append_assoc]
  have hwhole := hgrown.trans (hcarried.trans h.grown)
  cases hs : start.carryOn.1 with
  | waiting prompt =>
    refine ⟨hwhole, ?hears, ?closing, ?caused⟩
    case hears =>
      rw [hall, hs]
      exact .asked hplain h.hears
    case closing =>
      intro m hm ending left hhalted
      rcases List.mem_append.1 hm with hm | hm
      · rw [(eq_last_of_halted hm hhalted).1] at hs
        cases hs
      · obtain ⟨hrecord, hleft, hend, earlier, hvisited⟩ := h.closing m hm ending left hhalted
        exact ⟨(hgrown.trans hcarried).trans hrecord, hleft, hend, start.course ++ earlier,
          by rw [hvisited, List.append_assoc]⟩
    case caused =>
      intro ending hend
      obtain ⟨m, hm, hcause⟩ := h.caused ending hend
      exact ⟨m, List.mem_append_right _ hm, hcause⟩
  | ended ending =>
    have hstands := hstart.stands
    rw [hs] at hstands
    obtain ⟨rfl, rfl, hsame⟩ := hover hstands.1.isWaiting
    rw [hsame, since_self] at hall
    rw [List.append_nil]
    refine ⟨hwhole, ?hears, ?closing, ?caused⟩
    case hears =>
      rw [hsame, hall, hs, notesIn, List.filterMap_nil, List.append_nil]
      exact .ended hplain ending
    case closing =>
      intro m hm ending' left hhalted
      obtain ⟨heq, hlast⟩ := eq_last_of_halted hm hhalted
      rw [heq] at hs hsame
      cases hs
      exact ⟨hgrown.trans (record_le_of_mem_course start m hm), hsame, rfl, hlast⟩
    case caused =>
      intro ending' hend
      obtain rfl := List.mem_singleton.1 hend
      obtain ⟨earlier, last, hcourse, hlast⟩ := exists_last start
      have hmem : last ∈ start.course := by simp [hcourse]
      rw [hs, ← hsame] at hlast
      exact ⟨last, hmem, hstart.forall_mem last hmem, hlast⟩

theorem notesIn_since_deliver (command : Command) (input : Text) (e : Engine (Recorded ε)) :
    notesIn (since e (e.deliver command input)) = [] := by
  obtain ⟨cancel, hsince⟩ := since_deliver command input e
  rw [hsince]
  rfl

theorem UnderWay.chronicle (he : e.Settled) {calls : List Call} (h : e.UnderWay calls) :
    Chronicle e (e.courseOfAll calls) (e.callAll calls).1 (e.callAll calls).2 := by
  refine (UnderWay.induction (motive := fun e visited replies after =>
    e.IsOver visited replies after ∧ Chronicle e visited replies after) ?_ ?_ ?_ he h).2
  · intro e _
    refine ⟨fun _ => ⟨rfl, rfl, rfl⟩, List.prefix_refl _, ?_, List.forall_mem_nil _,
      List.forall_mem_nil _⟩
    rw [since_self]
    exact .rests
  · intro e call workspace visited replies after hs hne heq hend hprompts ih
    refine ⟨fun hw => ?_, ?_⟩
    · rw [hs.isWaiting] at hw
      cases hw
    · obtain ⟨passed, hrecord, htraffic, -⟩ := call_apart_talks hs.isWaiting hne
      rw [heq] at hrecord
      have hcall : e.record <+: Engine.record { e with workspace } := ⟨passed, hrecord.symm⟩
      have hquiet : notesIn (since e { e with workspace }) = [] := by
        rw [since_eq_of_record hrecord]
        exact notesIn_eq_nil fun p hp => Passage.isCallback_of_isTraffic (htraffic p hp)
      obtain ⟨hgrown, hhears, hclosing, hcaused⟩ := ih.2
      refine ⟨hcall.trans hgrown, ?_, fun m hm ending left hhalted => ?_, ?_⟩
      · rw [since_trans hcall hgrown, notesIn_append, hquiet, List.nil_append, List.flatMap_cons,
          hprompts, List.nil_append, List.filterMap_cons_none hend]
        exact hhears
      · obtain ⟨hrecord, hrest⟩ := hclosing m hm ending left hhalted
        rw [List.filterMap_cons_none hend]
        exact ⟨hcall.trans hrecord, hrest⟩
      · rw [List.filterMap_cons_none hend]
        exact hcaused
  · intro e command input visited replies after hs _ hstart ih
    refine ⟨fun hw => ?_, ?_⟩
    · rw [hs.isWaiting] at hw
      cases hw
    · have hdelivered : e.record <+: (e.deliver command input).record := ⟨_, rfl⟩
      exact ih.2.leg hdelivered (notesIn_since_deliver command input e) hstart ih.1

structure Reported (e : Engine (Recorded ε)) (visited : List (Engine (Recorded ε)))
    (prompts : List Text) (endings : List Ending) (final : Engine (Recorded ε)) : Prop where
  grown : e.record <+: final.record
  hears : Hears prompts endings (notesIn (since e final))
  closing : ∀ m ∈ visited, ∀ ending left, m.step = .halted (.ended ending) left →
    e.record <+: m.record ∧ final = left ∧ endings = [ending] ∧ ∃ earlier, visited = earlier ++ [m]
  caused : ∀ ending ∈ endings, ending = .cancelled ∨
    (visited = [] ∧ ∃ routine, ending = .routineNotFound routine) ∨
    ∃ m ∈ visited, m.OnCourse ∧ m.step = .halted (.ended ending) final

theorem Chronicle.reported (h : Chronicle e visited replies after) :
    Reported e visited (replies.flatMap Reply.prompts) (replies.filterMap Reply.ending?) after :=
  ⟨h.grown, h.hears, h.closing, fun ending hend => Or.inr (Or.inr (h.caused ending hend))⟩

theorem reported_run {routine : Text} {rest : List Call} (h : e.IsRun (.run routine :: rest)) :
    Reported e (e.courseOfAll (.run routine :: rest))
      ((e.callAll (.run routine :: rest)).1.flatMap Reply.prompts)
      ((e.callAll (.run routine :: rest)).1.filterMap Reply.ending?)
      (e.callAll (.run routine :: rest)).2 := by
  refine IsRun.induction (motive := fun visited replies after =>
    Reported e visited (replies.flatMap Reply.prompts) (replies.filterMap Reply.ending?) after)
    h ?_ ?_
  · obtain ⟨cancel, hcalled⟩ := called_finish e.begun (.routineNotFound routine)
    have hrecord : (e.begun.finish (.routineNotFound routine)).2.record
        = e.record ++ (Ending.routineNotFound routine).reportedAs cancel := hcalled.passes.record
    refine ⟨⟨_, hrecord.symm⟩, ?_, List.forall_mem_nil _, ?_⟩
    · rw [since_eq_of_record hrecord, notesIn_reportedAs]
      exact .ended (List.forall_mem_nil _) _
    · intro ending hend
      exact Or.inr (Or.inl ⟨rfl, routine, List.mem_singleton.1 hend⟩)
  · intro start hstart heq hway
    have hrest := hway.chronicle hstart.stands.settled
    have hbegun : start.record = e.record := by
      rw [heq]
      rfl
    have hgrown : e.record <+: start.record := ⟨[], (List.append_nil _).trans hbegun.symm⟩
    have hquiet : notesIn (since e start) = [] :=
      congrArg notesIn (since_eq_of_record (hbegun.trans (List.append_nil _).symm))
    refine (hrest.leg hgrown hquiet hstart fun hw => ?_).reported
    rw [underWay_of_not_waiting hway hw]
    exact ⟨rfl, rfl, rfl⟩

/-- To give a run up is told like a cancellation. -/
theorem Hears.abandoned {prompts : List Text} {endings : List Ending}
    {notes : List Notification} (h : Hears prompts endings notes) (hnone : endings = []) :
    Hears prompts [.cancelled] (notes ++ [cancelledNote]) := by
  induction h with
  | rests => exact .ended (List.forall_mem_nil _) .cancelled
  | asked hb _ ih =>
    rw [List.append_assoc]
    exact .asked hb (ih hnone)
  | ended => cases hnone

theorem exists_record_abandon (e : Engine (Recorded ε)) :
    ∃ cancel, e.abandon.record = e.record ++ [.notified cancelledNote cancel] := by
  obtain ⟨cancel, hcalled⟩ := called_finish { e with pending := none } .cancelled
  exact ⟨cancel, hcalled.passes.record⟩

theorem Reported.abandoned {prompts : List Text} (h : Reported e visited prompts [] after) :
    Reported e visited prompts [.cancelled] after.abandon := by
  obtain ⟨cancel, hrecord⟩ := exists_record_abandon after
  have hlast : after.record <+: after.abandon.record := ⟨_, hrecord.symm⟩
  refine ⟨h.grown.trans hlast, ?_, ?_, ?_⟩
  · rw [since_trans h.grown hlast, since_eq_of_record hrecord, notesIn_append]
    exact h.hears.abandoned rfl
  · intro m hm ending left hhalted
    obtain ⟨-, -, hnone, -⟩ := h.closing m hm ending left hhalted
    cases hnone
  · intro ending hend
    exact Or.inl (List.mem_singleton.1 hend)

theorem IsRun.reported {calls : List Call} (h : e.IsRun calls) :
    Reported e (e.courseOfAll calls) ((e.callAll calls).1.flatMap Reply.prompts)
      ((e.callAll calls).1.filterMap Reply.ending?) (e.callAll calls).2 := by
  obtain ⟨routine, rest, hrun, hcourse, hprompts, hend⟩ := h.exists_run
  have hreported := reported_run hrun
  rw [hcourse, hprompts]
  rcases hend with ⟨hendings, heq⟩ | ⟨hcancelled, hnone, -, heq⟩
  · rw [hendings, heq]
    exact hreported
  · rw [hnone] at hreported
    rw [hcancelled, heq]
    exact hreported.abandoned

theorem Hears.requests {prompts : List Text} {endings : List Ending} {notes : List Notification}
    (h : Hears prompts endings notes) :
    notes.filter Notification.requiresInput = prompts.map .prompt := by
  have hplain : ∀ before : List Notification, (∀ note ∈ before, note.IsPlain) →
      before.filter Notification.requiresInput = [] := by
    intro before hb
    rw [List.filter_eq_nil_iff]
    intro note hnote
    simp [(hb note hnote).requiresInput]
  induction h with
  | rests => rfl
  | asked hb _ ih =>
    rw [List.filter_append, hplain _ hb, List.nil_append, List.filter_cons_of_pos rfl, ih]
    rfl
  | ended hb ending =>
    rw [List.filter_append, hplain _ hb]
    cases ending <;> rfl

/-- Only the last that the user is told can be the report of an end. -/
theorem Hears.report_last {prompts : List Text} {endings : List Ending}
    {notes : List Notification} (h : Hears prompts endings notes) :
    ∃ before, notes = before ++ endings.flatMap (·.report?.toList) ∧ endings.length ≤ 1 ∧
      ∀ note ∈ before, note.severity ≠ .error ∧ note ≠ cancelledNote := by
  have hplain : ∀ before : List Notification, (∀ note ∈ before, note.IsPlain) →
      ∀ note ∈ before, note.severity ≠ .error ∧ note ≠ cancelledNote :=
    fun before hb note hnote => ⟨(hb note hnote).severity, (hb note hnote).ne_cancelled⟩
  induction h with
  | rests => exact ⟨[], rfl, Nat.zero_le _, List.forall_mem_nil _⟩
  | @asked before notes prompt prompts endings hb _ ih =>
    obtain ⟨before', hnotes, hlength, hclean⟩ := ih
    refine ⟨before ++ .prompt prompt :: before', ?_, hlength, ?_⟩
    · rw [hnotes, List.append_assoc]
      rfl
    · intro note hnote
      rcases List.mem_append.1 hnote with hnote | hnote
      · exact hplain before hb note hnote
      · rcases List.mem_cons.1 hnote with rfl | hnote
        · exact ⟨nofun, fun heq => by cases heq⟩
        · exact hclean note hnote
  | @ended before hb ending =>
    refine ⟨before, ?_, Nat.le_refl _, hplain before hb⟩
    rw [List.flatMap_singleton]

theorem Hears.isReportedIn {prompts : List Text} {ending : Ending} {notes : List Notification}
    (h : Hears prompts [ending] notes) : ending.IsReportedIn notes := by
  obtain ⟨before, hnotes, -, hclean⟩ := h.report_last
  rw [List.flatMap_singleton] at hnotes
  cases ending with
  | completed | quit =>
    have hbefore : notes = before := hnotes.trans (List.append_nil before)
    rw [hbefore]
    exact fun note hnote => (hclean note hnote).1
  | cancelled => exact ⟨before, hnotes, hclean⟩
  | routineNotFound | conditionError | callDepthExceeded | failed =>
    exact ⟨before, hnotes, fun note hnote => (hclean note hnote).1⟩

/-- At most one end is told, and before it nothing that looks like one. -/
theorem Hears.told_once {prompts : List Text} {endings : List Ending} {notes : List Notification}
    (h : Hears prompts endings notes) :
    endings = [] ∧ (∀ note ∈ notes, note.severity ≠ .error ∧ note ≠ cancelledNote) ∨
      ∃ ending, endings = [ending] ∧ ending.IsReportedIn notes := by
  obtain ⟨before, hnotes, hlength, hclean⟩ := h.report_last
  match endings with
  | [] =>
    rw [List.flatMap_nil, List.append_nil] at hnotes
    rw [hnotes]
    exact Or.inl ⟨rfl, hclean⟩
  | [ending] => exact Or.inr ⟨ending, rfl, h.isReportedIn⟩
  | _ :: _ :: _ => simp at hlength

/-- A step that ends a run with a command has the command's effect, then the host hears of the
command, and last of the end. -/
theorem since_of_carried {m left : Engine (Recorded ε)} {command : Command} {ending : Ending}
    (hc : m.carried? = some command) (h : m.step = .halted (.ended ending) left) :
    ∃ effects cancel cancel', (∀ p ∈ effects, p.isCallback = false) ∧
      since m left = effects ++ .observed ⟨command.line, left.workspace.lastRow,
        left.workspace.lastData⟩ cancel :: ending.reportedAs cancel' := by
  have hhappens := happens_halted h
  generalize since m left = passed at hhappens
  cases hhappens with
  | @ends command' effects verdict _ w _ cancel cancel' hc' he hv _ hw =>
    obtain rfl := Option.some.inj (hc.symm.trans hc')
    have hlast := hw.last_eq
    simp only [Workspace.last, Prod.mk.injEq] at hlast
    rw [hlast.1, hlast.2]
    exact ⟨effects, cancel, cancel', he.isCallback hv, rfl⟩
  | finished hn _ _ =>
    rw [carried?_of_fetched?_none hn] at hc
    cases hc

/-- A run that is neither completed nor cancelled is ended by a command. -/
theorem exists_carried {m left : Engine (Recorded ε)} {ending : Ending} (hm : m.OnCourse)
    (h : m.step = .halted (.ended ending) left) (hne : ending ≠ .completed ∧ ending ≠ .cancelled) :
    ∃ command, m.carried? = some command := by
  have hhappens := happens_halted h
  generalize since m left = passed at hhappens
  cases hhappens with
  | ends hc => exact ⟨_, hc⟩
  | finished _ hend _ =>
    rcases hend with hcompleted | hcancelled | ⟨-, hquit⟩
    · exact absurd hcompleted hne.1
    · exact absurd hcancelled hne.2
    · rw [hm.unbroken] at hquit
      cases hquit

/-- Every end is reported once and last. In a run the user is asked exactly the questions that it
waits at, in order; an end that is not meant is told as an error by its text, a cancellation as
such, and neither is told before the end. If the run is neither completed nor cancelled, a command
ended it, unless there was no routine to begin with. The host hears of that command once, after what
it did and before the report, and no command comes after it. -/
theorem reports_of_isRun {calls : List Call} (h : e.IsRun calls) :
    let final := (e.callAll calls).2
    let prompts := (e.callAll calls).1.flatMap Reply.prompts
    let endings := (e.callAll calls).1.filterMap Reply.ending?
    let notes := notesIn (since e final)
    notes.filter Notification.requiresInput = prompts.map .prompt ∧
    (endings = [] ∧ (∀ note ∈ notes, note.severity ≠ .error ∧ note ≠ cancelledNote) ∨
      ∃ ending, endings = [ending] ∧ ending.IsReportedIn notes) ∧
    (∀ ending ∈ endings, ending ≠ .completed → ending ≠ .cancelled →
      (e.courseOfAll calls = [] ∧ ∃ routine, ending = .routineNotFound routine) ∨
      ∃ m ∈ e.courseOfAll calls, ∃ command, m.carried? = some command ∧
        m.step = .halted (.ended ending) final) ∧
    ∀ m ∈ e.courseOfAll calls, ∀ command ending left, m.carried? = some command →
      m.step = .halted (.ended ending) left →
        left = final ∧ endings = [ending] ∧ (∃ earlier, e.courseOfAll calls = earlier ++ [m]) ∧
        ∃ effects cancel cancel', (∀ p ∈ effects, p.isCallback = false) ∧
          since e final = since e m ++ (effects ++ .observed ⟨command.line,
            final.workspace.lastRow, final.workspace.lastData⟩ cancel
              :: ending.reportedAs cancel') := by
  intro final prompts endings notes
  have hreported := h.reported
  refine ⟨hreported.hears.requests, hreported.hears.told_once, ?_, ?_⟩
  · intro ending hend hcompleted hcancelled
    rcases hreported.caused ending hend with heq | habsent | ⟨m, hm, hcourse, hhalted⟩
    · exact absurd heq hcancelled
    · exact Or.inl habsent
    · obtain ⟨command, hcarried⟩ := exists_carried hcourse hhalted ⟨hcompleted, hcancelled⟩
      exact Or.inr ⟨m, hm, command, hcarried, hhalted⟩
  · intro m hm command ending left hcarried hhalted
    obtain ⟨hrecord, hleft, hendings, hlast⟩ := hreported.closing m hm ending left hhalted
    obtain ⟨effects, cancel, cancel', hquiet, hsince⟩ := since_of_carried hcarried hhalted
    have hfinal : final = left := hleft
    have hstep : m.record <+: left.record := record_halted hhalted
    refine ⟨hleft.symm, hendings, hlast, effects, cancel, cancel', hquiet, ?_⟩
    rw [hfinal, since_trans hrecord hstep, hsince]

def stray : Engine Bench :=
  ((idle {} Bench.fresh).load [['U', 'q'], ['J', 'x']]).2

theorem reports_of_isRun_stray :
    stray.IsRun [.run [], .resume ['r']] ∧
      (stray.callAll [.run [], .resume ['r']]).1.filterMap Reply.ending?
        = [.routineNotFound ['x']] ∧
      (Ending.routineNotFound ['x']).IsReportedIn
        (notesIn (since stray (stray.callAll [.run [], .resume ['r']]).2)) := by
  obtain ⟨prompt, question, first, last, hfirst, hpending, hlast⟩ : ∃ prompt question first last,
      loop 1 { stray.begun with stack := [{ routine := [] }] } = some (.waiting prompt, first) ∧
        first.pending = some question ∧
        loop 1 (first.deliver question ['r'])
          = some (.ended (.routineNotFound ['x']), last) :=
    ⟨_, _, _, _, rfl, rfl, rfl⟩
  have hcall : stray.call (.run []) = (.standing (.waiting prompt), first) := by
    rw [call_run_of_contains rfl (by decide), carryOn_eq_of_loop hfirst]
  have hrun : stray.IsRun [.run [], .resume ['r']] := by
    refine ⟨rfl, ?_⟩
    rw [hcall]
    exact ⟨congrArg Option.isSome hpending, trivial⟩
  have hendings : (stray.callAll [.run [], .resume ['r']]).1.filterMap Reply.ending?
      = [.routineNotFound ['x']] := by
    rw [callAll_cons, hcall, callAll_cons, call_resume hpending, carryOn_eq_of_loop hlast]
    rfl
  obtain ⟨-, htold, -, -⟩ := reports_of_isRun hrun
  obtain ⟨hnone, -⟩ | ⟨ending, hsome, hreported⟩ := htold
  · rw [hendings] at hnone
    cases hnone
  · rw [hendings] at hsome
    cases hsome
    exact ⟨hrun, hendings, hreported⟩

end Engine
end BenchScript
