import BenchScript.Proofs.Exchanges

set_option autoImplicit false

namespace BenchScript

namespace Engine

section Outgoing

variable {ε : Type} [Environment ε]

def outgoing (m : Engine ε) : List (Except LinkError Frame) :=
  match m.fetched? with
  | some (top, command) =>
    if admits top command then m.workspace.outgoing m.settings command else []
  | none => []

def outgoingOf (e : Engine ε) : Call → List (List (Except LinkError Frame))
  | .sendDigits text => [[hexFrame e.settings.hexInlineLimit text]]
  | .sendChecksum text =>
    [[checksumFrame e.settings.hexInlineLimit e.workspace.lastRow e.workspace.lastData text]]
  | call => (e.courseOf call).map outgoing

theorem outgoingOf_of_runs {call : Call} (h : call.runs = true) (e : Engine ε) :
    e.outgoingOf call = (e.courseOf call).map outgoing := by
  cases call with
  | run | resume | runAnswered => rfl
  | load | loadFrom | cancel | sendDigits | sendChecksum | close => cases h

theorem outgoingOf_of_waiting {e : Engine ε} (h : e.isWaiting = true) {call : Call}
    (hb : call.begins = true) : e.outgoingOf call = [] := by
  cases call with
  | load | loadFrom => rfl
  | run | runAnswered => rw [outgoingOf_of_runs rfl, courseOf_of_begins h rfl, List.map_nil]
  | resume | cancel | sendDigits | sendChecksum | close => cases hb

def outgoingOfAll (e : Engine ε) : List Call → List (List (Except LinkError Frame))
  | [] => []
  | call :: rest => e.outgoingOf call ++ (e.call call).2.outgoingOfAll rest

theorem outgoing_of_fetched?_none {m : Engine ε} (h : m.fetched? = none) : m.outgoing = [] := by
  unfold outgoing
  rw [h]

theorem Fetches.outgoing_eq {m : Engine ε} {top : Invocation} {below : List Invocation}
    {command : Command} (h : m.Fetches top below command) :
    m.outgoing
      = if admits top command then m.workspace.outgoing m.settings command else [] := by
  unfold outgoing
  rw [h.fetched?_eq]

theorem Fetches.outgoing_of_admits {m : Engine ε} {top : Invocation} {below : List Invocation}
    {command : Command} (h : m.Fetches top below command) (hg : admits top command = true) :
    m.outgoing = m.workspace.outgoing m.settings command := by
  rw [h.outgoing_eq, if_pos hg]

theorem Fetches.outgoing_of_jump {m : Engine ε} {top : Invocation} {below : List Invocation}
    {command : Command} (h : m.Fetches top below command) (ha : command.action = .jump) :
    m.outgoing = [] := by
  have hjump : m.workspace.outgoing m.settings command = [] := by
    unfold Workspace.outgoing
    rw [ha]
  rw [h.outgoing_eq, hjump, ite_self]

end Outgoing

variable {ε : Type} [Environment ε] {m e e' : Engine (Recorded ε)}

open Workspace

theorem offline_leave (e : Engine (Recorded ε)) (top : Invocation) (below : List Invocation) :
    Offline e.workspace (e.leave top below).workspace := by
  unfold leave
  cases top.caller with
  | none => exact Offline.of_eq rfl
  | some caller => exact offline_observe caller e.workspace

theorem offline_finish (e : Engine (Recorded ε)) (ending : Ending) :
    Offline e.workspace (e.finish ending).2.workspace := by
  unfold finish
  cases ending.report? with
  | none => exact Offline.of_eq rfl
  | some note => exact offline_notify note e.workspace

theorem offline_setGate (e : Engine (Recorded ε)) (isOpen : Bool) (command : Command) :
    Offline e.workspace ((e.setGate isOpen).observe command).workspace := by
  unfold observe
  rw [workspace_mapWorkspace, workspace_setGate]
  exact offline_observe command e.workspace

/-- A step sends the frames of its command, and all of them are answered if the run goes on. -/
theorem trades_going (h : m.step = .going e') :
    Trades m.outgoing true m.workspace e'.workspace := by
  have move := m.move_step
  rw [h] at move
  cases move with
  | returned _ _ hs hn =>
    rw [outgoing_of_fetched?_none (fetched?_of_command?_none hs hn)]
    exact (offline_leave m _ _).trades
  | @passedOver _ _ command hf hg ha =>
    rw [hf.outgoing_eq, if_neg (by simp [admits_eq_false_iff.2 ⟨hg, ha⟩])]
    exact (offline_observe command m.workspace).trades
  | @next _ _ command w hf hg _ hp =>
    obtain ⟨intact, htrades, hintact⟩ := delivers_perform m.settings command m.workspace
    rw [hp] at htrades hintact
    rw [hintact nofun] at htrades
    rw [hf.outgoing_of_admits hg]
    exact htrades.offline (offline_observe command w)
  | @gate top below command isOpen hf hg _ hp =>
    obtain ⟨intact, htrades, hintact⟩ := delivers_perform m.settings command m.workspace
    rw [hp] at htrades hintact
    rw [hintact nofun] at htrades
    rw [hf.outgoing_of_admits hg]
    exact htrades.offline (offline_setGate (m.past top below m.workspace) isOpen command)
  | enters hf _ ha _ _ =>
    rw [hf.outgoing_of_jump ha]
    exact (Offline.of_eq rfl).trades

/-- So does a step that halts the run, up to a failure that ends it. -/
theorem trades_halted {standing : Standing} (h : m.step = .halted standing e') :
    ∃ intact, Trades m.outgoing intact m.workspace e'.workspace ∧
      ∀ prompt, standing = .waiting prompt → intact = true := by
  have move := m.move_step
  rw [h] at move
  cases move with
  | cancelled hc =>
    rw [outgoing_of_fetched?_none (fetched?_of_cancelled hc)]
    exact ⟨true, (offline_finish m _).trades, nofun⟩
  | broken _ hq =>
    rw [outgoing_of_fetched?_none (fetched?_of_quit hq)]
    exact ⟨true, (offline_finish m _).trades, nofun⟩
  | completed _ _ hs =>
    rw [outgoing_of_fetched?_none (fetched?_of_stack_nil hs)]
    exact ⟨true, (offline_finish m _).trades, nofun⟩
  | @waits _ _ command _ w hf hg _ hp =>
    obtain ⟨intact, htrades, hintact⟩ := delivers_perform m.settings command m.workspace
    rw [hp] at htrades hintact
    rw [hf.outgoing_of_admits (admits_of_gateOpen hg command)]
    exact ⟨intact, htrades, fun _ _ => hintact nofun⟩
  | @stops top below command _ w hf hg _ _ hp =>
    obtain ⟨intact, htrades, -⟩ := delivers_perform m.settings command m.workspace
    rw [hp] at htrades
    rw [hf.outgoing_of_admits hg]
    have hobserved := htrades.offline (offline_observe command w)
    exact ⟨intact, hobserved.offline (offline_finish ((m.past top below w).observe command) _),
      nofun⟩
  | @exhausted top below command hf _ ha _ | @missing top below command hf _ ha _ _ =>
    rw [hf.outgoing_of_jump ha]
    have hobserved := (offline_observe command m.workspace).trades
    exact ⟨true, hobserved.offline
      (offline_finish ((m.past top below m.workspace).spent.observe command) _), nofun⟩

def Transfers (groups : List (List (Except LinkError Frame))) (e e' : Engine (Recorded ε)) :
    Prop :=
  ∃ passed, e'.record = e.record ++ passed ∧ Traffic groups (traffic passed)

omit [Environment ε] in
theorem Transfers.trans {groups groups' : List (List (Except LinkError Frame))}
    {e'' : Engine (Recorded ε)} (h : Transfers groups e e') (h' : Transfers groups' e' e'') :
    Transfers (groups ++ groups') e e'' := by
  obtain ⟨passed, hrecord, hpassed⟩ := h
  obtain ⟨passed', hrecord', hpassed'⟩ := h'
  refine ⟨passed ++ passed', ?_, ?_⟩
  · rw [hrecord', hrecord, List.append_assoc]
  · rw [traffic_append]
    exact hpassed.append hpassed'

omit [Environment ε] in
theorem transfers_of_offline (h : Offline e.workspace e'.workspace) : Transfers [] e e' := by
  obtain ⟨passed, hrecord, hnone⟩ := h
  refine ⟨passed, hrecord, ?_⟩
  rw [hnone]
  exact .none

omit [Environment ε] in
theorem transfers_of_trades {frames : List (Except LinkError Frame)} {intact : Bool}
    (h : Trades frames intact e.workspace e'.workspace) : Transfers [frames] e e' := by
  obtain ⟨passed, hrecord, hpassed⟩ := h
  refine ⟨passed, hrecord, ?_⟩
  rw [← List.append_nil (traffic passed)]
  exact .sent hpassed .none

theorem transfers_carryOn (start : Engine (Recorded ε)) :
    Transfers (start.course.map outgoing) start start.carryOn.2 := by
  fun_induction carryOn start with
  | case1 m e' h ih =>
    rw [course_of_going h]
    exact (transfers_of_trades (trades_going h)).trans ih
  | case2 m standing e' h =>
    obtain ⟨intact, htrades, -⟩ := trades_halted h
    rw [course_of_halted h]
    exact transfers_of_trades htrades

/-- A call that is refused because a prompt waits leaves everything as it is. -/
theorem transfers_of_waiting (h : e.isWaiting = true) {call : Call} (hb : call.begins = true) :
    Transfers (e.outgoingOf call) e (e.call call).2 := by
  rw [outgoingOf_of_waiting h hb, call_of_begins h hb]
  exact transfers_of_offline (Offline.of_eq rfl)

theorem transfers_run (h : e.isWaiting = false) (routine : Text) :
    Transfers (e.outgoingOf (.run routine)) e (e.call (.run routine)).2 := by
  rw [outgoingOf_of_runs rfl]
  cases hr : e.routines.contains routine with
  | true =>
    rw [call_run_of_contains h hr, courseOf_run_of_contains h hr]
    exact transfers_carryOn _
  | false =>
    rw [call_run_of_not_contains h hr, courseOf_run_of_not_contains h hr]
    exact transfers_of_offline (offline_finish e.begun _)

theorem transfers_resume (e : Engine (Recorded ε)) (input : Text) :
    Transfers (e.outgoingOf (.resume input)) e (e.call (.resume input)).2 := by
  rw [outgoingOf_of_runs rfl]
  cases hp : e.pending with
  | none =>
    have hnone : e.courseOf (.resume input) = [] := courseOfAnswers_of_none hp [some input]
    rw [hnone]
    simp only [call, resume, hp]
    exact transfers_of_offline (Offline.of_eq rfl)
  | some command =>
    rw [call_resume hp, courseOf_resume hp]
    have hdelivered : Transfers [] e (e.deliver command input) :=
      transfers_of_offline (offline_observe command _)
    exact hdelivered.trans (transfers_carryOn _)

theorem transfers_resumes (inputs : List Text) (e : Engine (Recorded ε)) :
    Transfers ((e.courseOfAll (inputs.map .resume)).map outgoing) e
      (e.callAll (inputs.map .resume)).2 := by
  induction inputs generalizing e with
  | nil => exact transfers_of_offline (Offline.of_eq rfl)
  | cons input rest ih =>
    rw [List.map_cons, courseOfAll, callAll_cons, List.map_append]
    exact (transfers_resume e input).trans (ih _)

theorem transfers_runAnswered (h : e.isWaiting = false) (routine : Text)
    (answers : List (Option Text)) :
    Transfers (e.outgoingOf (.runAnswered routine answers)) e
      (e.call (.runAnswered routine answers)).2 := by
  obtain ⟨inputs, -, hcourse, ending, after, hend, hcall, -⟩ := call_runAnswered h routine answers
  have hall := (transfers_run h routine).trans (transfers_resumes inputs (e.call (.run routine)).2)
  rw [outgoingOf_of_runs rfl] at hall ⊢
  rw [hcourse, hcall, courseOfAll, List.map_append]
  rw [callAll_cons] at hend
  rcases hend with ⟨-, rfl⟩ | ⟨-, -, -, rfl⟩
  · exact hall
  · have habandoned := hall.trans (transfers_of_offline (offline_finish _ .cancelled))
    rw [List.append_nil] at habandoned
    exact habandoned

theorem transfers_adopt (loaded : Except ScriptError Routines) (e : Engine (Recorded ε)) :
    Transfers [] e (e.adopt loaded).2 := by
  cases loaded with
  | ok routines => exact transfers_of_offline (Offline.of_eq rfl)
  | error error => exact transfers_of_offline (offline_notify _ e.workspace)

theorem transfers_call (e : Engine (Recorded ε)) (call : Call) :
    Transfers (e.outgoingOf call) e (e.call call).2 := by
  rcases refused_or_free e call with ⟨hw, hb⟩ | hw
  · exact transfers_of_waiting hw hb
  · cases call with
    | load lines =>
      simp only [Engine.call, load_of_not_waiting (hw rfl)]
      exact transfers_adopt _ e.forget
    | loadFrom path =>
      simp only [Engine.call, loadFrom_of_not_waiting (hw rfl)]
      have hread : Transfers [] e (e.forget.mapWorkspace fun w =>
          { w with around := (FileStore.readLines path e.workspace.around).2 }) :=
        transfers_of_offline ⟨_, rfl, rfl⟩
      exact hread.trans (transfers_adopt _ _)
    | run routine => exact transfers_run (hw rfl) routine
    | resume input => exact transfers_resume e input
    | runAnswered routine answers => exact transfers_runAnswered (hw rfl) routine answers
    | cancel => exact transfers_of_offline (Offline.of_eq rfl)
    | sendDigits text | sendChecksum text =>
      exact transfers_of_trades (sends_sendAny _ e.workspace)
    | close => exact ⟨[.closed], rfl, .closed .none⟩

theorem transfers_callAll (calls : List Call) (e : Engine (Recorded ε)) :
    Transfers (e.outgoingOfAll calls) e (e.callAll calls).2 := by
  induction calls generalizing e with
  | nil => exact transfers_of_offline (Offline.of_eq rfl)
  | cons call rest ih =>
    rw [outgoingOfAll, callAll_cons]
    exact (transfers_call e call).trans (ih _)

/-- What a run itself did with the device, in the calls that it is made of. -/
def ownTraffic (e : Engine (Recorded ε)) : List Call → List Passage
  | [] => []
  | call :: rest =>
    (if call.runs then traffic (since e (e.call call).2) else [])
      ++ (e.call call).2.ownTraffic rest

omit [Environment ε] in
theorem Transfers.record {groups : List (List (Except LinkError Frame))}
    (h : Transfers groups e e') : e.record <+: e'.record := by
  obtain ⟨passed, hrecord, -⟩ := h
  exact ⟨passed, hrecord.symm⟩

omit [Environment ε] in
theorem traffic_since_of_offline (h : Offline e.workspace e'.workspace) :
    traffic (since e e') = [] := by
  obtain ⟨passed, hrecord, hnone⟩ := h
  rw [since_eq_of_record hrecord, hnone]

theorem ownTraffic_of_runs {calls : List Call} (h : ∀ call ∈ calls, call.runs = true)
    (e : Engine (Recorded ε)) : e.ownTraffic calls = traffic (since e (e.callAll calls).2) := by
  induction calls generalizing e with
  | nil =>
    have hsame : since e (e.callAll []).2 = [] := since_self e
    rw [hsame]
    rfl
  | cons call rest ih =>
    have hcall := (transfers_call e call).record
    have hrest := (transfers_callAll rest (e.call call).2).record
    rw [ownTraffic, if_pos (h call List.mem_cons_self), callAll_cons, since_trans hcall hrest,
      traffic_append, ih fun c hc => h c (List.mem_cons_of_mem _ hc)]

/-- A part of a run in which nothing comes after a fault, and in which there is no fault if the run
waits at its end. -/
def Sound (standing : Standing) (e e' : Engine (Recorded ε)) : Prop :=
  e.record <+: e'.record ∧ FaultLast (traffic (since e e')) ∧
    ∀ prompt, standing = .waiting prompt → Faultless (traffic (since e e'))

theorem sound_carryOn (start : Engine (Recorded ε)) :
    Sound start.carryOn.1 start start.carryOn.2 := by
  fun_induction carryOn start with
  | case1 m e' h ih =>
    obtain ⟨passed, hrecord, hpassed⟩ := trades_going h
    obtain ⟨hgrown, hlast, hnone⟩ := ih
    have hstep : m.record <+: e'.record := ⟨passed, hrecord.symm⟩
    -- A step that goes on had no fault, so a fault can only come behind it.
    have hclean : Faultless (traffic (since m e')) := by
      rw [since_eq_of_record hrecord]
      exact hpassed.faultless rfl
    refine ⟨hstep.trans hgrown, ?_, ?_⟩
    · rw [since_trans hstep hgrown, traffic_append]
      exact hclean.append_faultLast hlast
    · intro prompt hwaits
      rw [since_trans hstep hgrown, traffic_append]
      exact hclean.append (hnone prompt hwaits)
  | case2 m standing e' h =>
    obtain ⟨intact, ⟨passed, hrecord, hpassed⟩, hintact⟩ := trades_halted h
    refine ⟨⟨passed, hrecord.symm⟩, ?_, ?_⟩
    · rw [since_eq_of_record hrecord]
      exact hpassed.faultLast
    · intro prompt hwaits
      rw [since_eq_of_record hrecord]
      exact hpassed.faultless (hintact prompt hwaits)

omit [Environment ε] in
theorem Sound.of_offline {standing : Standing} {e'' : Engine (Recorded ε)}
    (h : Offline e.workspace e'.workspace) (h' : Sound standing e' e'') : Sound standing e e'' := by
  obtain ⟨hgrown, hlast, hnone⟩ := h'
  have hfirst : e.record <+: e'.record := by
    obtain ⟨passed, hrecord, -⟩ := h
    exact ⟨passed, hrecord.symm⟩
  have hsame : traffic (since e e'') = traffic (since e' e'') := by
    rw [since_trans hfirst hgrown, traffic_append, traffic_since_of_offline h, List.nil_append]
  refine ⟨hfirst.trans hgrown, ?_, ?_⟩
  · rw [hsame]
    exact hlast
  · rw [hsame]
    exact hnone

theorem sound_run (h : e.isWaiting = false) (routine : Text) :
    ∃ standing, (e.call (.run routine)).2.Stands standing ∧
      Sound standing e (e.call (.run routine)).2 := by
  obtain ⟨standing, hok, hs⟩ := stands_run h routine
  have hreply : (e.call (.run routine)).1 = .standing standing := by
    simp only [call, hok, Reply.ofStanding]
  refine ⟨standing, hs, ?_⟩
  cases hr : e.routines.contains routine with
  | true =>
    rw [call_run_of_contains h hr] at hreply ⊢
    obtain rfl := Reply.standing.inj hreply
    exact sound_carryOn { e.begun with stack := [{ routine }] }
  | false =>
    rw [call_run_of_not_contains h hr] at hreply ⊢
    obtain rfl := Reply.standing.inj hreply
    have hoffline := offline_finish e.begun (.routineNotFound routine)
    have hnone := traffic_since_of_offline (e := e) hoffline
    obtain ⟨passed, hrecord, -⟩ := hoffline
    refine ⟨⟨passed, hrecord.symm⟩, ?_, fun prompt hprompt => ?_⟩
    · rw [hnone]
      exact .nil
    · cases hprompt

theorem Suspended.sound_resume (h : e.Suspended) (input : Text) :
    ∃ standing, (e.call (.resume input)).2.Stands standing ∧
      Sound standing e (e.call (.resume input)).2 := by
  obtain ⟨command, hp⟩ := h.exists_question
  rw [call_resume hp]
  have hdelivered : Offline e.workspace (e.deliver command input).workspace :=
    offline_observe command _
  exact ⟨_, (h.deliver command input).stands, (sound_carryOn _).of_offline hdelivered⟩

/-- What was done in a part of a run and what is done after it: if the part had a fault, the run is
over. -/
theorem Sound.append {standing : Standing} (h : Sound standing e e') (hs : e'.Stands standing)
    {rest : List Call} (hway : e'.UnderWay rest) (hrest : FaultLast (e'.ownTraffic rest)) :
    FaultLast (traffic (since e e') ++ e'.ownTraffic rest) := by
  obtain ⟨-, hlast, hnone⟩ := h
  cases standing with
  | waiting prompt => exact (hnone prompt rfl).append_faultLast hrest
  | ended ending =>
    have hnil := underWay_of_not_waiting hway hs.1.isWaiting
    subst hnil
    rw [ownTraffic, List.append_nil]
    exact hlast

theorem UnderWay.faultLast {calls : List Call} (he : e.Settled) (h : e.UnderWay calls) :
    FaultLast (e.ownTraffic calls) := by
  induction calls generalizing e with
  | nil => exact .nil
  | cons call rest ih =>
    obtain ⟨hw, hrest⟩ := h
    have hnext := ih (he.call call) hrest
    rw [ownTraffic]
    cases call with
    | resume input =>
      obtain ⟨standing, hs, hsound⟩ := (he.suspended hw).sound_resume input
      exact hsound.append hs hrest hnext
    | run | runAnswered =>
      rw [call_of_begins hw rfl] at hnext ⊢
      rw [since_self]
      exact hnext
    | load | loadFrom | cancel | sendDigits | sendChecksum | close => exact hnext

theorem faultLast_run {routine : Text} {rest : List Call}
    (h : e.IsRun (.run routine :: rest)) : FaultLast (e.ownTraffic (.run routine :: rest)) := by
  obtain ⟨hw, hway⟩ := h
  obtain ⟨standing, hs, hsound⟩ := sound_run hw routine
  exact hsound.append hs hway (hway.faultLast hs.settled)

theorem IsRun.faultLast {calls : List Call} (h : e.IsRun calls) :
    FaultLast (e.ownTraffic calls) := by
  match calls, h with
  | .run routine :: rest, h => exact faultLast_run h
  | .runAnswered routine answers :: rest, ⟨hw, hrest⟩ =>
    obtain ⟨inputs, hway, -, ending, after, hend, hcall, hafter⟩ :=
      call_runAnswered hw routine answers
    rw [hcall] at hrest
    have hnil := underWay_of_not_waiting hrest hafter.1.isWaiting
    subst hnil
    have hruns : ∀ call ∈ Call.run routine :: inputs.map .resume, call.runs = true := by
      intro call hmem
      rcases List.mem_cons.1 hmem with rfl | hmem
      · rfl
      · obtain ⟨input, -, rfl⟩ := List.mem_map.1 hmem
        rfl
    have hlast : FaultLast (e.ownTraffic (.run routine :: inputs.map .resume)) :=
      faultLast_run ⟨hw, hway⟩
    have hgrown := (transfers_callAll (.run routine :: inputs.map .resume) e).record
    rw [ownTraffic_of_runs hruns] at hlast
    rw [ownTraffic_of_runs (by simp [Call.runs]), callAll_cons, hcall]
    rcases hend with ⟨-, rfl⟩ | ⟨-, -, -, rfl⟩
    · exact hlast
    · -- To give a run up is to tell the host, and leaves the device alone.
      have hoffline : Offline (e.callAll (.run routine :: inputs.map .resume)).2.workspace
          (e.callAll (.run routine :: inputs.map .resume)).2.abandon.workspace :=
        offline_notify _ _
      have hsince := since_trans hgrown (transfers_of_offline hoffline).record
      change FaultLast
        (traffic (since e (e.callAll (.run routine :: inputs.map .resume)).2.abandon))
      rw [hsince, traffic_append, traffic_since_of_offline hoffline, List.append_nil]
      exact hlast

/-- The device sees exchanges and nothing else: a write and the read that answers it, or a write
that failed. A run does nothing with it after its first failure, and a frame that has no encoding
does not reach it. -/
theorem half_duplex (e : Engine (Recorded ε)) (calls : List Call) :
    (∃ passed, (e.callAll calls).2.record = e.record ++ passed ∧ HalfDuplex (traffic passed) ∧
      Traffic (e.outgoingOfAll calls) (traffic passed)) ∧
    (e.IsRun calls → FaultLast (e.ownTraffic calls)) ∧
    ∀ (frame : Except LinkError Frame) (error : LinkError) (w : Workspace (Recorded ε)),
      frame.bind Frame.encode = .error error →
        w.sendAny frame = (.error (.ofLink error), w) := by
  obtain ⟨passed, hrecord, htraffic⟩ := transfers_callAll calls e
  refine ⟨⟨passed, hrecord, htraffic.halfDuplex, htraffic⟩, IsRun.faultLast, ?_⟩
  intro frame error w h
  exact sendAny_of_error h w

def unheard : Engine Bench :=
  ((idle {} ⟨⟨{ isOpen := false }, {}, {}⟩, []⟩).call
    (.load [['D', ' ', 'a'], ['D', ' ', 'b']])).2

theorem half_duplex_unheard :
    unheard.IsRun [.run []] ∧
      unheard.ownTraffic [.run []] = [.wrote [0x44, 1, 0x61, 0x0A] (.error .closed)] ∧
      FaultLast (unheard.ownTraffic [.run []]) ∧
      (hexFrame 8 ['0']).bind Frame.encode = .error (.hex (.oddLength 1)) ∧
      unheard.workspace.sendAny (hexFrame 8 ['0'])
        = (.error (.ofLink (.hex (.oddLength 1))), unheard.workspace) := by
  obtain ⟨-, hlast, hunformed⟩ := half_duplex unheard [.run []]
  have hrun : unheard.IsRun [.run []] := ⟨rfl, trivial⟩
  obtain ⟨standing, left, hloop, hrecord⟩ : ∃ standing left,
      loop 2 { unheard.begun with stack := [{ routine := [] }] } = some (standing, left) ∧
      traffic left.record = [.wrote [0x44, 1, 0x61, 0x0A] (.error .closed)] :=
    ⟨_, _, rfl, rfl⟩
  have hsent : unheard.ownTraffic [.run []]
      = [.wrote [0x44, 1, 0x61, 0x0A] (.error .closed)] := by
    have hruns : (Call.run []).runs = true := rfl
    have hsince : since unheard left = left.record := rfl
    rw [ownTraffic, if_pos hruns, call_run_of_contains rfl (by decide), carryOn_eq_of_loop hloop,
      hsince, hrecord]
    rfl
  exact ⟨hrun, hsent, hlast hrun, rfl, hunformed _ _ _ rfl⟩

end Engine
end BenchScript
