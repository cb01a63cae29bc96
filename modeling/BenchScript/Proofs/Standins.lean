import BenchScript.Proofs.Traffic

set_option autoImplicit false

/-!
# Devices that stand in for others

An engine knows its device by exchanges alone. If one device does in an exchange what another does,
for so many exchanges, then an engine cannot tell which of the two it has: as long as it does not
exceed the number, whatever is done with it comes out the same over both. `Device.StandsIn` is about
one exchange, `redone_send` takes it to the only place where an engine uses its device, and
`redone_callAll` to all calls.
-/
namespace BenchScript

def Passage.isExchange : Passage → Bool
  | .wrote _ (.ok ()) => true
  | _ => false

def exchangesIn (passed : List Passage) : Nat := passed.countP Passage.isExchange

theorem exchangesIn_append (passed passed' : List Passage) :
    exchangesIn (passed ++ passed') = exchangesIn passed + exchangesIn passed' :=
  List.countP_append ..

theorem exchangesIn_le {passed passed' : List Passage} (h : passed <+: passed') :
    exchangesIn passed ≤ exchangesIn passed' := h.sublist.countP_le

section Trading

variable {δ δ' : Type} [Device δ] [Device δ']

/-- What two devices make of a line that is sent, one exchange of so many being left. Both refuse it
for the same reason, or both take it and answer the same. -/
inductive Device.Trade (D : Nat → δ → δ' → Prop) (bytes : Bytes) : Nat → δ → δ' → Prop where
  | refused {left : Nat} {device after : δ} {device' after' : δ'} {error : LinkError}
      (h : Device.write bytes device = (.error error, after))
      (h' : Device.write bytes device' = (.error error, after')) (hd : D left after after') :
      Trade D bytes left device device'
  | answered {left : Nat} {device taken after : δ} {device' taken' after' : δ'}
      {answer : Except LinkError Bytes} (h : Device.write bytes device = (.ok (), taken))
      (hr : Device.readThrough terminator taken = (answer, after))
      (h' : Device.write bytes device' = (.ok (), taken'))
      (hr' : Device.readThrough terminator taken' = (answer, after')) (hd : D left after after') :
      Trade D bytes (left + 1) device device'
  | exceeded {device taken : δ} {device' : δ'} (h : Device.write bytes device = (.ok (), taken)) :
      Trade D bytes 0 device device'

/-- One device does what another does while there are exchanges left. -/
structure Device.StandsIn (D : Nat → δ → δ' → Prop) : Prop where
  trade : ∀ {left device device'} bytes, D left device device' →
    Device.Trade D bytes left device device'
  close : ∀ {left device device'}, D left device device' →
    D left (Device.close device) (Device.close device')

def exchangeAll : List Frame → δ → List (Except LinkError Response) × δ
  | [], device => ([], device)
  | frame :: rest, device =>
    let (result, device) := exchange frame device
    let (results, device) := exchangeAll rest device
    (result :: results, device)

theorem exchangeAll_cons (frame : Frame) (rest : List Frame) (device : δ) :
    exchangeAll (frame :: rest) device
      = ((exchange frame device).1 :: (exchangeAll rest (exchange frame device).2).1,
        (exchangeAll rest (exchange frame device).2).2) := rfl

variable {D : Nat → δ → δ' → Prop} {left : Nat} {device : δ} {device' : δ'}

/-- Only a frame that has an encoding takes an exchange off what is left. -/
theorem Device.StandsIn.agrees (hD : StandsIn D) (h : D left device device') {frame : Frame}
    {needed : Nat} (hleft : needed + (if frame.encode.isOk then 1 else 0) ≤ left) :
    (exchange frame device).1 = (exchange frame device').1 ∧ ∃ left', needed ≤ left' ∧
      D left' (exchange frame device).2 (exchange frame device').2 := by
  cases hencode : frame.encode with
  | error error =>
    rw [exchange_of_encode_error hencode, exchange_of_encode_error hencode]
    exact ⟨rfl, left, Nat.le_of_add_right_le hleft, h⟩
  | ok bytes =>
    have hsome : needed + 1 ≤ left := by
      rw [hencode] at hleft
      exact hleft
    unfold exchange
    rw [hencode]
    cases hD.trade bytes h with
    | refused hw hw' hafter =>
      simp only [hw, hw']
      exact ⟨trivial, left, Nat.le_of_succ_le hsome, hafter⟩
    | @answered left _ _ _ _ _ _ answer hw hr hw' hr' hafter =>
      simp only [hw, hw', hr, hr']
      cases answer <;> exact ⟨rfl, left, Nat.le_of_succ_le_succ hsome, hafter⟩
    | exceeded => exact absurd hsome (Nat.not_succ_le_zero needed)

theorem Device.StandsIn.agrees_all (hD : StandsIn D) (frames : List Frame)
    (h : D left device device') (hleft : frames.countP (fun frame => frame.encode.isOk) ≤ left) :
    (exchangeAll frames device).1 = (exchangeAll frames device').1 ∧
      ∃ left', D left' (exchangeAll frames device).2 (exchangeAll frames device').2 := by
  induction frames generalizing left device device' with
  | nil => exact ⟨rfl, left, h⟩
  | cons frame rest ih =>
    rw [List.countP_cons] at hleft
    obtain ⟨hfirst, left', hneeded, hafter⟩ := hD.agrees h hleft
    obtain ⟨hrest, hend⟩ := ih hafter hneeded
    rw [exchangeAll_cons, exchangeAll_cons, hfirst, hrest]
    exact ⟨rfl, hend⟩

end Trading

section Replacing

variable {δ δ' φ η : Type} {D : Nat → δ → δ' → Prop} {limit : Nat} {device : δ'}

def Recorded.withDevice (device : δ') (r : Recorded (Surroundings δ φ η)) :
    Recorded (Surroundings δ' φ η) :=
  ⟨⟨device, r.around.files, r.around.host⟩, r.record⟩

def Workspace.withDevice (device : δ') (w : Workspace (Recorded (Surroundings δ φ η))) :
    Workspace (Recorded (Surroundings δ' φ η)) :=
  { w with around := w.around.withDevice device }

def Engine.withDevice (device : δ') (e : Engine (Recorded (Surroundings δ φ η))) :
    Engine (Recorded (Surroundings δ' φ η)) :=
  { e with workspace := e.workspace.withDevice device }

def Engine.Progress.withDevice (device : δ') : Progress (Recorded (Surroundings δ φ η)) →
    Progress (Recorded (Surroundings δ' φ η))
  | .going e => .going (e.withDevice device)
  | .halted standing e => .halted standing (e.withDevice device)

def Engine.Progress.around {ε : Type} : Progress ε → ε
  | .going e => e.workspace.around
  | .halted _ e => e.workspace.around

/-- With all exchanges that a record shows, up to a limit, a device can be replaced by this one. -/
def Serves (D : Nat → δ → δ' → Prop) (limit : Nat) (r : Recorded (Surroundings δ φ η))
    (device : δ') : Prop :=
  ∃ left, left + exchangesIn r.record = limit ∧ D left r.around.device device

structure Aside (r r' : Recorded (Surroundings δ φ η)) : Prop where
  device : r'.around.device = r.around.device
  exchanges : exchangesIn r'.record = exchangesIn r.record

theorem Aside.trans {r r' r'' : Recorded (Surroundings δ φ η)} (h : Aside r r')
    (h' : Aside r' r'') : Aside r r'' :=
  ⟨h'.device.trans h.device, h'.exchanges.trans h.exchanges⟩

theorem Aside.of_passage {r r' : Recorded (Surroundings δ φ η)} {p : Passage}
    (hd : r'.around.device = r.around.device) (hr : r'.record = r.record ++ [p])
    (hp : p.isExchange = false) : Aside r r' := by
  refine ⟨hd, ?_⟩
  rw [hr, exchangesIn_append]
  have hnone : exchangesIn [p] = 0 := List.countP_eq_zero.2 (by simp [hp])
  rw [hnone, Nat.add_zero]

theorem Serves.aside {r r' : Recorded (Surroundings δ φ η)} (h : Serves D limit r device)
    (h' : Aside r r') : Serves D limit r' device := by
  obtain ⟨left, hleft, hd⟩ := h
  exact ⟨left, by rw [h'.exchanges, hleft], by rw [h'.device]; exact hd⟩

def Workspace.Redone {β : Type} (D : Nat → δ → δ' → Prop) (limit : Nat)
    (outcome : β × Workspace (Recorded (Surroundings δ φ η)))
    (outcome' : β × Workspace (Recorded (Surroundings δ' φ η))) : Prop :=
  ∃ device, Serves D limit outcome.2.around device ∧
    outcome' = (outcome.1, outcome.2.withDevice device)

def Engine.Redone {β : Type} (D : Nat → δ → δ' → Prop) (limit : Nat)
    (outcome : β × Engine (Recorded (Surroundings δ φ η)))
    (outcome' : β × Engine (Recorded (Surroundings δ' φ η))) : Prop :=
  ∃ device, Serves D limit outcome.2.workspace.around device ∧
    outcome' = (outcome.1, outcome.2.withDevice device)

def Engine.Progress.Redone (D : Nat → δ → δ' → Prop) (limit : Nat)
    (progress : Progress (Recorded (Surroundings δ φ η)))
    (progress' : Progress (Recorded (Surroundings δ' φ η))) : Prop :=
  ∃ device, Serves D limit progress.around device ∧ progress' = progress.withDevice device

namespace Engine

/-- What is made of an outcome over another device is the same again. -/
theorem Redone.map {β γ : Type} {outcome : β × Engine (Recorded (Surroundings δ φ η))}
    {outcome' : β × Engine (Recorded (Surroundings δ' φ η))} (h : Redone D limit outcome outcome')
    (f : β → γ) : Redone D limit (f outcome.1, outcome.2) (f outcome'.1, outcome'.2) := by
  obtain ⟨device, hserves, rfl⟩ := h
  exact ⟨device, hserves, rfl⟩

theorem redone_sent {outcome : Except ScriptError Unit × Workspace (Recorded (Surroundings δ φ η))}
    {outcome' : Except ScriptError Unit × Workspace (Recorded (Surroundings δ' φ η))}
    (h : Workspace.Redone D limit outcome outcome')
    (e : Engine (Recorded (Surroundings δ φ η))) :
    Redone D limit (Reply.ofUnit outcome.1, { e with workspace := outcome.2 })
      (Reply.ofUnit outcome'.1, { e.withDevice device with workspace := outcome'.2 }) := by
  obtain ⟨device', hserves, rfl⟩ := h
  exact ⟨device', hserves, rfl⟩

theorem setGate_withDevice (isOpen : Bool) (e : Engine (Recorded (Surroundings δ φ η))) :
    (e.withDevice device).setGate isOpen = (e.setGate isOpen).withDevice device := by
  have hstack : (e.withDevice device).stack = e.stack := rfl
  unfold setGate
  rw [hstack]
  cases e.stack <;> rfl

end Engine

end Replacing

section Growing

variable {ε : Type} [Environment ε]

theorem Workspace.proceed_snd (command : Command)
    (outcome : Except ScriptError Unit × Workspace ε) :
    (proceed command outcome).2 = outcome.2 := by
  obtain ⟨result, after⟩ := outcome
  cases result <;> rfl

namespace Engine

theorem grows_answer (command : Command) (input : Text) (e : Engine (Recorded ε)) :
    e.record <+: (e.deliver command input).carryOn.2.record :=
  ⟨_, (record_answer command input e).symm⟩

theorem grows_answerPrompts {α : Type} (source : AnswerSource α) (rest : α) (standing : Standing)
    (e : Engine (Recorded ε)) : e.record <+: (e.answerPrompts source rest standing).2.1.record := by
  fun_induction answerPrompts source rest standing e with
  | case1 | case3 => exact List.prefix_refl _
  | case2 rest e prompt left hnone =>
    exact (transfers_of_offline (offline_finish { e with pending := none } .cancelled)).record
  | case4 rest e prompt input left hsome command hp ending e' hcarried =>
    have hgrown := grows_answer command input e
    rw [hcarried] at hgrown
    exact hgrown
  | case5 rest e prompt input left hsome command hp prompt' e' hcarried ih =>
    have hgrown := grows_answer command input e
    rw [hcarried] at hgrown
    exact hgrown.trans ih

end Engine

end Growing

section Leaving

variable {δ φ η : Type} [Device δ] [FileStore φ] [Host η]

theorem Recorded.write_eq {r : Recorded (Surroundings δ φ η)} {bytes : Bytes}
    {result : Except LinkError Unit} {after : δ}
    (h : Device.write bytes r.around.device = (result, after)) :
    Device.write bytes r
      = (result, ⟨{ r.around with device := after }, r.record ++ [.wrote bytes result]⟩) := by
  change r.keep (.wrote bytes) ((Device.write bytes r.around.device).map id _) = _
  rw [h]
  rfl

theorem Recorded.readThrough_eq {r : Recorded (Surroundings δ φ η)} {stop : UInt8}
    {result : Except LinkError Bytes} {after : δ}
    (h : Device.readThrough stop r.around.device = (result, after)) :
    Device.readThrough stop r
      = (result, ⟨{ r.around with device := after }, r.record ++ [.received stop result]⟩) := by
  change r.keep (.received stop) ((Device.readThrough stop r.around.device).map id _) = _
  rw [h]
  rfl

namespace Workspace

theorem aside_notify (note : Notification) (w : Workspace (Recorded (Surroundings δ φ η))) :
    Aside w.around (w.notify note).around := Aside.of_passage rfl rfl rfl

theorem aside_observe (command : Command) (w : Workspace (Recorded (Surroundings δ φ η))) :
    Aside w.around (w.observe command).around := Aside.of_passage rfl rfl rfl

end Workspace

namespace Engine

theorem aside_finish (ending : Ending) (e : Engine (Recorded (Surroundings δ φ η))) :
    Aside e.workspace.around (e.finish ending).2.workspace.around := by
  unfold finish
  cases ending.report? with
  | none => exact ⟨rfl, rfl⟩
  | some note => exact Workspace.aside_notify note e.workspace

theorem aside_observe (command : Command) (e : Engine (Recorded (Surroundings δ φ η))) :
    Aside e.workspace.around (e.observe command).workspace.around :=
  Workspace.aside_observe command e.workspace

theorem aside_enter (command : Command) (name : Text)
    (e : Engine (Recorded (Surroundings δ φ η))) :
    Aside e.workspace.around (e.enter command name).around := by
  let spent : Engine (Recorded (Surroundings δ φ η)) := { e with budget := e.budget - 1 }
  have hstops (ending : Ending) :
      Aside e.workspace.around ((spent.observe command).halt ending).around :=
    (aside_observe command spent).trans (aside_finish ending (spent.observe command))
  unfold enter
  simp only
  split
  · exact hstops _
  · split
    · exact hstops _
    · exact ⟨rfl, rfl⟩

theorem aside_follow (command : Command) (verdict : Verdict)
    (e : Engine (Recorded (Surroundings δ φ η))) :
    Aside e.workspace.around (e.follow command verdict).around := by
  cases verdict with
  | next => exact aside_observe command e
  | gate isOpen =>
    have hobserved := aside_observe command (e.setGate isOpen)
    rw [workspace_setGate] at hobserved
    exact hobserved
  | enter name => exact aside_enter command name e
  | suspend prompt => exact ⟨rfl, rfl⟩
  | stop ending => exact (aside_observe command e).trans (aside_finish ending _)

theorem aside_leave (top : Invocation) (below : List Invocation)
    (e : Engine (Recorded (Surroundings δ φ η))) :
    Aside e.workspace.around (e.leave top below).workspace.around := by
  unfold leave
  cases top.caller with
  | none => exact ⟨rfl, rfl⟩
  | some caller => exact aside_observe caller { e with stack := below }

end Engine

end Leaving

section Using

variable {δ δ' φ η : Type} [Device δ] [Device δ'] [FileStore φ] [Host η]
  {D : Nat → δ → δ' → Prop} {limit : Nat} {device : δ'}

/-- In one exchange nothing is noticed. -/
theorem exchange_withDevice (hD : Device.StandsIn D) {r : Recorded (Surroundings δ φ η)}
    (h : Serves D limit r device) (frame : Frame)
    (hlimit : exchangesIn (exchange frame r).2.record ≤ limit) :
    ∃ device', Serves D limit (exchange frame r).2 device' ∧
      exchange frame (r.withDevice device)
        = ((exchange frame r).1, (exchange frame r).2.withDevice device') := by
  cases hencode : frame.encode with
  | error error =>
    rw [exchange_of_encode_error hencode, exchange_of_encode_error hencode]
    exact ⟨device, h, rfl⟩
  | ok bytes =>
    obtain ⟨left, hleft, hd⟩ := h
    have htrade := hD.trade bytes hd
    generalize hdevice : r.around.device = d at htrade
    cases htrade with
    | @refused _ _ _ _ _ error hw hw' hafter =>
      rw [← hdevice] at hw
      have hwrite := Recorded.write_eq hw
      have hwrite' := Recorded.write_eq (r := r.withDevice device) hw'
      have hcount : exchangesIn [.wrote bytes (.error error)] = 0 := rfl
      simp only [exchange, hencode, hwrite, hwrite']
      refine ⟨_, ⟨left, ?_, hafter⟩, rfl⟩
      rw [exchangesIn_append, hcount]
      exact hleft
    | @answered left _ taken _ _ taken' _ answer hw hr hw' hr' hafter =>
      rw [← hdevice] at hw
      have hwrite := Recorded.write_eq hw
      have hwrite' : Device.write bytes (r.withDevice device)
          = (.ok (), ⟨⟨taken', r.around.files, r.around.host⟩,
              r.record ++ [.wrote bytes (.ok ())]⟩) :=
        Recorded.write_eq hw'
      have hread := Recorded.readThrough_eq
        (r := ⟨⟨taken, r.around.files, r.around.host⟩, r.record ++ [.wrote bytes (.ok ())]⟩) hr
      have hread' := Recorded.readThrough_eq
        (r := ⟨⟨taken', r.around.files, r.around.host⟩, r.record ++ [.wrote bytes (.ok ())]⟩) hr'
      have hcount : left + exchangesIn
          (r.record ++ [.wrote bytes (.ok ())] ++ [.received terminator answer]) = limit := by
        have hpair : exchangesIn [.wrote bytes (.ok ()), .received terminator answer] = 1 := rfl
        rw [List.append_assoc, exchangesIn_append, List.singleton_append, hpair]
        omega
      simp only [exchange, hencode, hwrite, hwrite', hread, hread']
      cases answer <;> exact ⟨_, ⟨left, hcount, hafter⟩, rfl⟩
    | @exceeded _ taken _ hw =>
      rw [← hdevice] at hw
      have hwrite := Recorded.write_eq hw
      have hgrown : r.record ++ [.wrote bytes (.ok ())] <+: (exchange frame r).2.record := by
        simp only [exchange, hencode, hwrite]
        cases hread : Device.readThrough terminator taken with
        | mk answer after =>
          have hkept := Recorded.readThrough_eq
            (r := ⟨{ r.around with device := taken }, r.record ++ [.wrote bytes (.ok ())]⟩) hread
          simp only [hkept]
          cases answer <;> exact List.prefix_append _ _
      have hcount := exchangesIn_le hgrown
      rw [exchangesIn_append] at hcount
      have hone : exchangesIn [.wrote bytes (.ok ())] = 1 := rfl
      omega

namespace Workspace

variable {w : Workspace (Recorded (Surroundings δ φ η))}

theorem Redone.proceed
    {outcome : Except ScriptError Unit × Workspace (Recorded (Surroundings δ φ η))}
    {outcome' : Except ScriptError Unit × Workspace (Recorded (Surroundings δ' φ η))}
    (h : Redone D limit outcome outcome') (command : Command) :
    Redone D limit (proceed command outcome) (Workspace.proceed command outcome') := by
  obtain ⟨device, hserves, rfl⟩ := h
  obtain ⟨result, after⟩ := outcome
  cases result with
  | error | ok => exact ⟨device, hserves, rfl⟩

theorem redone_send (hD : Device.StandsIn D) (h : Serves D limit w.around device) (frame : Frame)
    (hlimit : exchangesIn (w.send frame).2.around.record ≤ limit) :
    Redone D limit (w.send frame) ((w.withDevice device).send frame) := by
  have hsent := exchange_withDevice hD h frame
  have haround : (w.withDevice device).around = w.around.withDevice device := rfl
  simp only [send, haround] at hlimit ⊢
  generalize exchange frame w.around = outcome at hlimit hsent ⊢
  obtain ⟨result, around⟩ := outcome
  cases result with
  | error | ok =>
    obtain ⟨device', hserves, hsame⟩ := hsent hlimit
    rw [hsame]
    exact ⟨device', hserves, rfl⟩

theorem redone_sendAny (hD : Device.StandsIn D) (h : Serves D limit w.around device)
    (frame : Except LinkError Frame)
    (hlimit : exchangesIn (w.sendAny frame).2.around.record ≤ limit) :
    Redone D limit (w.sendAny frame) ((w.withDevice device).sendAny frame) := by
  cases frame with
  | error error => exact ⟨device, h, rfl⟩
  | ok frame => exact redone_send hD h frame hlimit

theorem redone_sendLines (hD : Device.StandsIn D) (bound : Nat) (lines : List Text)
    (h : Serves D limit w.around device)
    (hlimit : exchangesIn (w.sendLines bound lines).2.around.record ≤ limit) :
    Redone D limit (w.sendLines bound lines) ((w.withDevice device).sendLines bound lines) := by
  induction lines generalizing w device with
  | nil => exact ⟨device, h, rfl⟩
  | cons line rest ih =>
    have hline := redone_sendAny hD h (hexFrame bound line)
    simp only [sendLines, sendDigits] at hlimit ⊢
    generalize w.sendAny (hexFrame bound line) = outcome at hlimit hline ⊢
    obtain ⟨result, after⟩ := outcome
    cases result with
    | error error =>
      obtain ⟨device', hserves, hsame⟩ := hline hlimit
      rw [hsame]
      exact ⟨device', hserves, rfl⟩
    | ok =>
      obtain ⟨passed, hrecord, -⟩ := sends_sendLines bound rest after
      have hgrown := exchangesIn_le ⟨passed, hrecord.symm⟩
      obtain ⟨device', hserves, hsame⟩ := hline (Nat.le_trans hgrown hlimit)
      rw [hsame]
      exact ih hserves hlimit

theorem redone_sendFile (hD : Device.StandsIn D) (h : Serves D limit w.around device) (bound : Nat)
    (command : Command)
    (hlimit : exchangesIn (w.sendFile bound command).2.around.record ≤ limit) :
    Redone D limit (w.sendFile bound command) ((w.withDevice device).sendFile bound command) := by
  unfold sendFile at hlimit ⊢
  by_cases hpath : command.argument = []
  · simp only [if_pos hpath]
    exact ⟨device, h.aside (aside_notify _ w), rfl⟩
  · have hread : FileStore.readLines command.argument (w.withDevice device).around
        = ((FileStore.readLines command.argument w.around).1,
          (FileStore.readLines command.argument w.around).2.withDevice device) := rfl
    have hkept : Aside w.around (FileStore.readLines command.argument w.around).2 :=
      Aside.of_passage rfl rfl rfl
    simp only [if_neg hpath, hread] at hlimit ⊢
    generalize FileStore.readLines command.argument w.around = out at hlimit hkept ⊢
    obtain ⟨result, around⟩ := out
    have hserves : Serves D limit { w with around }.around device := h.aside hkept
    cases result with
    | error cause => exact ⟨device, hserves.aside (aside_notify _ { w with around }), rfl⟩
    | ok lines => exact redone_sendLines hD bound _ hserves hlimit

theorem redone_appendRow (h : Serves D limit w.around device) (defaultOutput : Option Text)
    (command : Command) :
    Serves D limit (w.appendRow defaultOutput command).around device ∧
      (w.withDevice device).appendRow defaultOutput command
        = (w.appendRow defaultOutput command).withDevice device := by
  unfold appendRow
  simp only
  generalize (if command.argument = [] then defaultOutput else some command.argument) = path?
  cases path? with
  | none => exact ⟨h.aside (aside_notify _ w), rfl⟩
  | some path =>
    have hout : FileStore.appendLine path (w.withDevice device).lastRow (w.withDevice device).around
        = ((FileStore.appendLine path w.lastRow w.around).1,
          (FileStore.appendLine path w.lastRow w.around).2.withDevice device) := rfl
    have hkept : Aside w.around (FileStore.appendLine path w.lastRow w.around).2 :=
      Aside.of_passage rfl rfl rfl
    simp only [hout]
    generalize FileStore.appendLine path w.lastRow w.around = out at hkept ⊢
    obtain ⟨result, around⟩ := out
    have hserves : Serves D limit { w with around }.around device := h.aside hkept
    cases result with
    | error cause => exact ⟨hserves.aside (aside_notify _ { w with around }), rfl⟩
    | ok => exact ⟨hserves, rfl⟩

theorem redone_withLine (h : Serves D limit w.around device) (command : Command)
    {action : Text → Except ScriptError Unit × Workspace (Recorded (Surroundings δ φ η))}
    {action' : Text → Except ScriptError Unit × Workspace (Recorded (Surroundings δ' φ η))}
    (ha : ∀ line, exchangesIn (action line).2.around.record ≤ limit →
      Redone D limit (action line) (action' line))
    (hlimit : exchangesIn (withLine command w action).2.around.record ≤ limit) :
    Redone D limit (withLine command w action)
      (withLine command (w.withDevice device) action') := by
  have hbindings : (w.withDevice device).bindings = w.bindings := rfl
  unfold withLine at hlimit ⊢
  rw [hbindings]
  cases hline : w.bindings.expand command.line with
  | ok line =>
    simp only [hline, proceed_snd] at hlimit
    exact (ha line hlimit).proceed command
  | error error => exact ⟨device, h, rfl⟩

theorem redone_perform (hD : Device.StandsIn D) (h : Serves D limit w.around device)
    (settings : Settings) (command : Command)
    (hlimit : exchangesIn (w.perform settings command).2.around.record ≤ limit) :
    Redone D limit (w.perform settings command)
      ((w.withDevice device).perform settings command) := by
  unfold perform at hlimit ⊢
  cases ha : command.action with
  | condition | jump | quit | routine => exact ⟨device, h, rfl⟩
  | define =>
    have hbindings : (w.withDevice device).bindings = w.bindings := rfl
    have hrow : (w.withDevice device).lastRow = w.lastRow := rfl
    simp only [hbindings, hrow]
    cases w.bindings.assign (Text.trim command.raw) w.lastRow with
    | error error => exact ⟨device, h, rfl⟩
    | ok assigned => exact ⟨device, h.aside (Aside.of_passage rfl rfl rfl), rfl⟩
  | message | ask => exact ⟨device, h.aside (aside_notify _ w), rfl⟩
  | append =>
    obtain ⟨hserves, hsame⟩ := redone_appendRow h settings.defaultOutput command
    exact ⟨device, hserves, congrArg (Prod.mk _) hsame⟩
  | data =>
    simp only [ha, proceed_snd] at hlimit
    exact (redone_send hD h _ hlimit).proceed command
  | sendFile =>
    simp only [ha, proceed_snd] at hlimit
    exact (redone_sendFile hD h _ command hlimit).proceed command
  | hex | checksum =>
    simp only [ha] at hlimit
    exact redone_withLine h command (fun line => redone_sendAny hD h _) hlimit
  | forward tag =>
    simp only [ha] at hlimit
    exact redone_withLine h command (fun line => redone_send hD h _) hlimit

end Workspace

namespace Engine

variable {e : Engine (Recorded (Surroundings δ φ η))}

theorem finish_withDevice (ending : Ending) (e : Engine (Recorded (Surroundings δ φ η))) :
    (e.withDevice device).finish ending
      = ((e.finish ending).1, (e.finish ending).2.withDevice device) := by
  unfold finish
  cases ending.report? <;> rfl

theorem halt_withDevice (ending : Ending) (e : Engine (Recorded (Surroundings δ φ η))) :
    (e.withDevice device).halt ending = (e.halt ending).withDevice device := by
  unfold halt
  rw [finish_withDevice]
  rfl

theorem enter_withDevice (command : Command) (name : Text)
    (e : Engine (Recorded (Surroundings δ φ η))) :
    (e.withDevice device).enter command name = (e.enter command name).withDevice device := by
  let spent : Engine (Recorded (Surroundings δ φ η)) := { e with budget := e.budget - 1 }
  have hstops (ending : Ending) : ((spent.withDevice device).observe command).halt ending
      = ((spent.observe command).halt ending).withDevice device :=
    halt_withDevice ending (spent.observe command)
  have hbudget : (e.withDevice device).budget = e.budget := rfl
  have hroutines : (e.withDevice device).routines = e.routines := rfl
  unfold enter
  simp only [hbudget, hroutines]
  split
  · exact hstops _
  · split
    · exact hstops _
    · rfl

theorem follow_withDevice (command : Command) (verdict : Verdict)
    (e : Engine (Recorded (Surroundings δ φ η))) :
    (e.withDevice device).follow command verdict
      = (e.follow command verdict).withDevice device := by
  cases verdict with
  | next | suspend prompt => rfl
  | gate isOpen =>
    exact congrArg (fun set => Progress.going (observe command set)) (setGate_withDevice isOpen e)
  | enter name => exact enter_withDevice command name e
  | stop ending => exact halt_withDevice ending (e.observe command)

theorem leave_withDevice (top : Invocation) (below : List Invocation)
    (e : Engine (Recorded (Surroundings δ φ η))) :
    (e.withDevice device).leave top below = (e.leave top below).withDevice device := by
  unfold leave
  cases top.caller <;> rfl

theorem redone_advance (hD : Device.StandsIn D) (h : Serves D limit e.workspace.around device)
    (top : Invocation) (below : List Invocation) (command : Command)
    (hlimit : exchangesIn (e.advance top below command).around.record ≤ limit) :
    Progress.Redone D limit (e.advance top below command)
      ((e.withDevice device).advance top below command) := by
  let behind : Engine (Recorded (Surroundings δ φ η)) :=
    { e with stack := { top with position := top.position + 1 } :: below }
  unfold advance at hlimit ⊢
  simp only at hlimit ⊢
  split
  · next hadmits =>
    rw [if_pos hadmits] at hlimit
    have hdone := Workspace.redone_perform hD h e.settings command
    have hperform : (e.withDevice device).workspace.perform (e.withDevice device).settings command
        = (e.workspace.withDevice device).perform e.settings command := rfl
    rw [hperform]
    generalize e.workspace.perform e.settings command = outcome at hlimit hdone ⊢
    obtain ⟨verdict, after⟩ := outcome
    have haside := aside_follow command verdict { behind with workspace := after }
    obtain ⟨device', hserves, hsame⟩ := hdone (haside.exchanges ▸ hlimit)
    rw [hsame]
    exact ⟨device', hserves.aside haside,
      follow_withDevice command verdict { behind with workspace := after }⟩
  · exact ⟨device, h.aside (aside_follow command .next behind),
      follow_withDevice command .next behind⟩

theorem redone_step (hD : Device.StandsIn D) (h : Serves D limit e.workspace.around device)
    (hlimit : exchangesIn e.step.around.record ≤ limit) :
    Progress.Redone D limit e.step (e.withDevice device).step := by
  have hstops (ending : Ending) :
      Progress.Redone D limit (e.halt ending) ((e.withDevice device).halt ending) :=
    ⟨device, h.aside (aside_finish ending e), halt_withDevice ending e⟩
  have hcancelled : (e.withDevice device).workspace.cancelled = e.workspace.cancelled := rfl
  have hquit : (e.withDevice device).quit = e.quit := rfl
  have hstack : (e.withDevice device).stack = e.stack := rfl
  have hroutines : (e.withDevice device).routines = e.routines := rfl
  unfold step at hlimit ⊢
  rw [hcancelled, hquit, hstack, hroutines]
  split
  · exact hstops _
  · next hgoing =>
    rw [if_neg hgoing] at hlimit
    split
    · exact hstops _
    · next hstill =>
      rw [if_neg hstill] at hlimit
      cases hframes : e.stack with
      | nil => exact hstops _
      | cons top below =>
        simp only [hframes] at hlimit ⊢
        cases hcommand : e.routines.command? top.routine top.position with
        | none => exact ⟨device, h.aside (aside_leave top below e),
            congrArg Progress.going (leave_withDevice top below e)⟩
        | some command =>
          simp only [hcommand] at hlimit
          exact redone_advance hD h top below command hlimit

theorem redone_carryOn (hD : Device.StandsIn D) (start : Engine (Recorded (Surroundings δ φ η)))
    (h : Serves D limit start.workspace.around device)
    (hlimit : exchangesIn start.carryOn.2.record ≤ limit) :
    Redone D limit start.carryOn (start.withDevice device).carryOn := by
  -- A record only grows, so the exchanges of the first step are within the limit as well.
  fun_induction carryOn start generalizing device with
  | case1 e e' hstep ih =>
    have hgrown := (transfers_carryOn e').record
    obtain ⟨device', hserves, hsame⟩ := redone_step hD h (by
      rw [hstep]
      exact Nat.le_trans (exchangesIn_le hgrown) hlimit)
    rw [hstep] at hserves hsame
    rw [carryOn_of_going hsame]
    exact ih hserves hlimit
  | case2 e standing e' hstep =>
    obtain ⟨device', hserves, hsame⟩ := redone_step hD h (by
      rw [hstep]
      exact hlimit)
    rw [hstep] at hserves hsame
    rw [carryOn_of_halted hsame]
    exact ⟨device', hserves, rfl⟩

theorem redone_run (hD : Device.StandsIn D) (h : Serves D limit e.workspace.around device)
    (routine : Text) (hlimit : exchangesIn (e.run routine).2.record ≤ limit) :
    Redone D limit (e.run routine) ((e.withDevice device).run routine) := by
  have hwaiting : (e.withDevice device).isWaiting = e.isWaiting := rfl
  have hbegun : (e.withDevice device).begun = e.begun.withDevice device := rfl
  have hroutines : (e.begun.withDevice device).routines = e.begun.routines := rfl
  unfold run at hlimit ⊢
  rw [hwaiting]
  split
  · exact ⟨device, h, rfl⟩
  · next hfree =>
    rw [if_neg hfree] at hlimit
    simp only [hbegun, hroutines] at hlimit ⊢
    split
    · next hfound =>
      rw [if_pos hfound] at hlimit
      have hrun := redone_carryOn hD { e.begun with stack := [{ routine }] } h hlimit
      exact hrun.map Except.ok
    · rw [finish_withDevice]
      exact ⟨device, h.aside (aside_finish _ e.begun), rfl⟩

/-- An answer to a prompt carries the run on in the same way. -/
theorem redone_answer (hD : Device.StandsIn D) (h : Serves D limit e.workspace.around device)
    (command : Command) (input : Text)
    (hlimit : exchangesIn (e.deliver command input).carryOn.2.record ≤ limit) :
    Redone D limit (e.deliver command input).carryOn
      ((e.withDevice device).deliver command input).carryOn :=
  redone_carryOn hD _ (h.aside (Aside.of_passage rfl rfl rfl)) hlimit

theorem redone_resume (hD : Device.StandsIn D) (h : Serves D limit e.workspace.around device)
    (input : Text) (hlimit : exchangesIn (e.resume input).2.record ≤ limit) :
    Redone D limit (e.resume input) ((e.withDevice device).resume input) := by
  have hpending : (e.withDevice device).pending = e.pending := rfl
  unfold resume at hlimit ⊢
  rw [hpending]
  cases hp : e.pending with
  | none => exact ⟨device, h, rfl⟩
  | some command =>
    simp only [hp] at hlimit
    exact (redone_answer hD h command input hlimit).map Except.ok

/-- Answers are asked for in the same way, and the same is left of their source. -/
theorem redone_answerPrompts {α : Type} (hD : Device.StandsIn D) (source : AnswerSource α)
    (rest : α) (standing : Standing) (e : Engine (Recorded (Surroundings δ φ η)))
    (h : Serves D limit e.workspace.around device)
    (hlimit : exchangesIn (e.answerPrompts source rest standing).2.1.record ≤ limit) :
    ∃ device',
      Serves D limit (e.answerPrompts source rest standing).2.1.workspace.around device' ∧
      (e.withDevice device).answerPrompts source rest standing
        = (e.answerPrompts source rest standing).map id (Prod.map (withDevice device') id) := by
  -- What is recorded up to an answer is within the limit, since the whole record is.
  fun_induction answerPrompts source rest standing e generalizing device with
  | case1 rest e ending => exact ⟨device, h, answerPrompts_ended _ ending⟩
  | case2 rest e prompt left hnone =>
    refine ⟨device, h.aside (aside_finish .cancelled { e with pending := none }), ?_⟩
    have habandoned : (e.withDevice device).abandon = e.abandon.withDevice device :=
      congrArg Prod.snd (finish_withDevice .cancelled { e with pending := none })
    rw [answerPrompts_none (e := e.withDevice device) hnone, habandoned]
    rfl
  | case3 rest e prompt input left hsome hp =>
    exact ⟨device, h, answerPrompts_unasked (e := e.withDevice device) hp hsome⟩
  | case4 rest e prompt input left hsome command hp ending e' hcarried =>
    have hanswer := redone_answer hD h command input
    rw [hcarried] at hanswer
    obtain ⟨device', hserves, hsame⟩ := hanswer hlimit
    refine ⟨device', hserves, ?_⟩
    rw [answerPrompts_some (e := e.withDevice device) hp hsome, hsame]
    exact answerPrompts_ended _ ending
  | case5 rest e prompt input left hsome command hp prompt' e' hcarried ih =>
    have hanswer := redone_answer hD h command input
    rw [hcarried] at hanswer
    have hgrown := grows_answerPrompts source left (.waiting prompt') e'
    obtain ⟨device', hserves, hsame⟩ :=
      hanswer (Nat.le_trans (exchangesIn_le hgrown) hlimit)
    rw [answerPrompts_some (e := e.withDevice device) hp hsome, hsame]
    exact ih hserves hlimit

theorem redone_runAnswered {α : Type} (hD : Device.StandsIn D)
    (h : Serves D limit e.workspace.around device) (routine : Text) (source : AnswerSource α)
    (rest : α) (hlimit : exchangesIn (e.runAnswered routine source rest).2.1.record ≤ limit) :
    ∃ device',
      Serves D limit (e.runAnswered routine source rest).2.1.workspace.around device' ∧
      (e.withDevice device).runAnswered routine source rest
        = (e.runAnswered routine source rest).map id (Prod.map (withDevice device') id) := by
  have hrun := redone_run hD h routine
  unfold runAnswered at hlimit ⊢
  generalize e.run routine = outcome at hrun hlimit ⊢
  obtain ⟨result, after⟩ := outcome
  cases result with
  | error error =>
    obtain ⟨device', hserves, hsame⟩ := hrun hlimit
    rw [hsame]
    exact ⟨device', hserves, rfl⟩
  | ok standing =>
    have hgrown := grows_answerPrompts source rest standing after
    obtain ⟨device', hserves, hsame⟩ := hrun (Nat.le_trans (exchangesIn_le hgrown) hlimit)
    rw [hsame]
    exact redone_answerPrompts hD source rest standing after hserves hlimit

theorem redone_adopt (h : Serves D limit e.workspace.around device)
    (loaded : Except ScriptError Routines) :
    Redone D limit (e.adopt loaded) ((e.withDevice device).adopt loaded) := by
  cases loaded with
  | ok routines => exact ⟨device, h, rfl⟩
  | error error => exact ⟨device, h.aside (Workspace.aside_notify _ e.workspace), rfl⟩

theorem redone_load (h : Serves D limit e.workspace.around device) (lines : List Text) :
    Redone D limit (e.load lines) ((e.withDevice device).load lines) := by
  have hwaiting : (e.withDevice device).isWaiting = e.isWaiting := rfl
  unfold load
  rw [hwaiting]
  split
  · exact ⟨device, h, rfl⟩
  · exact redone_adopt (e := e.forget) h _

theorem redone_loadFrom (h : Serves D limit e.workspace.around device) (path : Text) :
    Redone D limit (e.loadFrom path) ((e.withDevice device).loadFrom path) := by
  have hwaiting : (e.withDevice device).isWaiting = e.isWaiting := rfl
  unfold loadFrom
  rw [hwaiting]
  split
  · exact ⟨device, h, rfl⟩
  · have hread : FileStore.readLines path (e.withDevice device).forget.workspace.around
        = ((FileStore.readLines path e.forget.workspace.around).1,
          (FileStore.readLines path e.forget.workspace.around).2.withDevice device) := rfl
    have hkept : Aside e.workspace.around (FileStore.readLines path e.forget.workspace.around).2 :=
      Aside.of_passage rfl rfl rfl
    simp only [hread]
    generalize FileStore.readLines path e.forget.workspace.around = out at hkept ⊢
    obtain ⟨result, around⟩ := out
    have hserves := h.aside hkept
    cases result with
    | ok lines =>
      exact redone_adopt (e := e.forget.mapWorkspace fun w => { w with around }) hserves _
    | error cause =>
      exact redone_adopt (e := e.forget.mapWorkspace fun w => { w with around }) hserves _

theorem redone_call (hD : Device.StandsIn D) (h : Serves D limit e.workspace.around device)
    (call : Call) (hlimit : exchangesIn (e.call call).2.record ≤ limit) :
    Redone D limit (e.call call) ((e.withDevice device).call call) := by
  cases call with
  | load lines => exact (redone_load h lines).map Reply.ofUnit
  | loadFrom path => exact (redone_loadFrom h path).map Reply.ofUnit
  | run routine => exact (redone_run hD h routine hlimit).map Reply.ofStanding
  | resume input => exact (redone_resume hD h input hlimit).map Reply.ofStanding
  | cancel => exact ⟨device, h, rfl⟩
  | sendDigits text | sendChecksum text =>
    exact redone_sent (Workspace.redone_sendAny hD h _ hlimit) e
  | close =>
    obtain ⟨left, hleft, hd⟩ := h
    have hnone : exchangesIn (e.record ++ [.closed]) = exchangesIn e.record :=
      (exchangesIn_append e.record [.closed]).trans (Nat.add_zero _)
    exact ⟨Device.close device, ⟨left, hnone ▸ hleft, hD.close hd⟩, rfl⟩
  | runAnswered routine answers =>
    have hrun := redone_runAnswered hD h routine Prepared.source ⟨answers, []⟩
    simp only [Engine.call] at hlimit ⊢
    generalize e.runAnswered routine Prepared.source ⟨answers, []⟩ = outcome at hrun hlimit ⊢
    obtain ⟨result, after, left⟩ := outcome
    cases result with
    | error | ok =>
      obtain ⟨device', hserves, hsame⟩ := hrun hlimit
      rw [hsame]
      exact ⟨device', hserves, rfl⟩

/-- As long as the exchanges last, calls cannot tell a device from the one that stands in for it. -/
theorem redone_callAll (hD : Device.StandsIn D) (calls : List Call)
    (h : Serves D limit e.workspace.around device)
    (hlimit : exchangesIn (e.callAll calls).2.record ≤ limit) :
    Redone D limit (e.callAll calls) ((e.withDevice device).callAll calls) := by
  induction calls generalizing e device with
  | nil => exact ⟨device, h, rfl⟩
  | cons call rest ih =>
    rw [callAll_cons] at hlimit ⊢
    have hgrown := (transfers_callAll rest (e.call call).2).record
    obtain ⟨device', hserves, hsame⟩ :=
      redone_call hD h call (Nat.le_trans (exchangesIn_le hgrown) hlimit)
    rw [callAll_cons, hsame]
    exact (ih hserves hlimit).map ((e.call call).1 :: ·)

end Engine

end Using

end BenchScript
