import BenchScript.Engine.Call
import BenchScript.Proofs.Digits
import BenchScript.Proofs.Passages
import BenchScript.Proofs.Reads
import BenchScript.Wire.Link

set_option autoImplicit false

namespace BenchScript

namespace Hex

def alphabet : Text := "0123456789ABCDEFabcdef".toList

theorem isSome_digit?_iff (b : UInt8) : (digit? b).isSome = true ↔ b ∈ asciiBytes alphabet := by
  have hall : ∀ n : Fin 256, (digit? (UInt8.ofNat n)).isSome = true
      ↔ UInt8.ofNat n ∈ asciiBytes alphabet := by
    decide +kernel
  have hbyte := hall ⟨b.toNat, b.toNat_lt⟩
  rwa [UInt8.ofNat_toNat] at hbyte

theorem decodePairs_of_decode {text : Text} {bytes : Bytes} (h : decode text = .ok bytes) :
    Utf8.size text % 2 = 0 ∧ decodePairs 0 (Utf8.encode text) = .ok bytes := by
  unfold decode at h
  unfold Utf8.size
  simp only at h
  split at h
  · cases h
  · exact ⟨by omega, h⟩

theorem exists_decode_iff (text : Text) :
    (∃ bytes, decode text = .ok bytes) ↔
      Utf8.size text % 2 = 0 ∧ ∀ b ∈ Utf8.encode text, b ∈ asciiBytes alphabet := by
  constructor
  · rintro ⟨bytes, h⟩
    obtain ⟨heven, hpairs⟩ := decodePairs_of_decode h
    exact ⟨heven, fun b hb => (isSome_digit?_iff b).1 (isSome_digit?_of_decodePairs hpairs b hb)⟩
  · rintro ⟨heven, hdigits⟩
    unfold Utf8.size at heven
    unfold decode
    rw [if_neg (by omega)]
    exact exists_decodePairs heven (fun b hb => (isSome_digit?_iff b).2 (hdigits b hb)) 0

structure WellFormed (text : Text) : Prop where
  nonempty : text ≠ []
  even : Utf8.size text % 2 = 0
  digits : ∀ b ∈ Utf8.encode text, b ∈ asciiBytes alphabet

theorem WellFormed.exists_decode {text : Text} (h : WellFormed text) :
    ∃ bytes, decode text = .ok bytes :=
  (exists_decode_iff text).2 ⟨h.even, h.digits⟩

theorem wellFormed_of_decode {text : Text} {bytes : Bytes} (h : decode text = .ok bytes)
    (hsome : text ≠ []) : WellFormed text := by
  obtain ⟨heven, hdigits⟩ := (exists_decode_iff text).1 ⟨bytes, h⟩
  exact ⟨hsome, heven, hdigits⟩

theorem size_of_decode {text : Text} {bytes : Bytes} (h : decode text = .ok bytes) :
    Utf8.size text = 2 * bytes.length :=
  length_of_decodePairs (decodePairs_of_decode h).2

/-- Digits have one byte each. -/
theorem length_of_decode {text : Text} {bytes : Bytes} (h : decode text = .ok bytes) :
    text.length = Utf8.size text :=
  (Utf8.size_of_ascii fun c hc => (isHexDigit_of_decode h c hc).toNat_lt).symm

end Hex

/-- The frame that hexadecimal text goes out as: its bytes while there are fewer digits than the
limit, and the text itself beyond. -/
inductive Inlines (limit : Nat) (text : Text) : Frame → Prop where
  | data {payload : Bytes} (h : Utf8.size (hexDigits text) < limit)
      (hp : Hex.decode (hexDigits text) = .ok payload) : Inlines limit text (.data payload)
  | text (h : limit ≤ Utf8.size (hexDigits text)) :
      Inlines limit text (.text ((Text.trim text).map Char.toUpper))

variable {text : Text}

theorem hexFrame_of_not_wellFormed (limit : Nat) (h : ¬ Hex.WellFormed (hexDigits text)) :
    ∃ error, hexFrame limit text = .error (.hex error) := by
  unfold hexFrame
  split
  · exact ⟨_, rfl⟩
  · next hsome =>
    split
    · exact ⟨_, rfl⟩
    · next bytes hdecode => exact absurd (Hex.wellFormed_of_decode hdecode hsome) h

theorem hexFrame_of_wellFormed (limit : Nat) (h : Hex.WellFormed (hexDigits text)) :
    ∃ frame, hexFrame limit text = .ok frame ∧ Inlines limit text frame := by
  obtain ⟨payload, hdecode⟩ := h.exists_decode
  unfold hexFrame
  rw [if_neg h.nonempty, hdecode]
  simp only [Hex.length_of_decode hdecode]
  split
  · next hshort => exact ⟨_, rfl, .data hshort hdecode⟩
  · next hlong => exact ⟨_, rfl, .text (Nat.le_of_not_lt hlong)⟩

/-- With a limit that the settings admit, the bytes fit a frame. -/
theorem Inlines.exists_encode {limit : Nat} {frame : Frame} (h : Inlines limit text frame)
    (hlimit : limit ≤ maxInlineLimit) : ∃ line, frame.encode = .ok line := by
  cases h with
  | text => exact ⟨_, rfl⟩
  | @data payload hshort hdecode =>
    have hsize := Hex.size_of_decode hdecode
    unfold maxInlineLimit at hlimit
    exact ⟨_, if_neg (by omega)⟩

/-- Whatever fails about a device is a fault of the link, and not of what was to be sent. -/
structure Device.FailsAsLink (δ : Type) [Device δ] : Prop where
  write : ∀ (bytes : Bytes) (device : δ) (e : LinkError),
    (Device.write bytes device).1 = .error e → e.isFormat = false
  readThrough : ∀ (stop : UInt8) (device : δ) (e : LinkError),
    (Device.readThrough stop device).1 = .error e → e.isFormat = false

theorem IoFault.isFormat_toLinkError (fault : IoFault) : fault.toLinkError.isFormat = false := by
  unfold toLinkError
  cases fault.kind <;> rfl

theorem CannedDevice.failsAsLink : Device.FailsAsLink CannedDevice := by
  constructor
  · intro bytes device e h
    simp only [Device.write, CannedDevice.write] at h
    split at h <;> cases h
    rfl
  · intro stop device e h
    simp only [Device.readThrough, CannedDevice.readThrough] at h
    split at h
    · cases h
      rfl
    · split at h <;> cases h

theorem Item.isFormat_of_take {stop : UInt8} {held : Bytes} {items : List Item} {e : LinkError}
    (h : (take stop held items).1 = .error e) : e.isFormat = false := by
  have hover : ∀ bytes, handedOver bytes = .error e → e.isFormat = false := by
    intro bytes hbytes
    unfold handedOver at hbytes
    split at hbytes <;> cases hbytes
    rfl
  fun_induction take stop held items with
  | case1 | case2 => exact hover _ h
  | case3 held failure later =>
    cases h
    exact failure.isFormat_toLinkError
  | case4 => cases h
  | case5 held b later hb ih => exact ih h

namespace StreamLink

theorem isFormat_of_offer {acceptances : List Acceptance} {bytes : Bytes} {e : LinkError}
    (h : (offer acceptances bytes).1 = .error e) : e.isFormat = false := by
  fun_induction offer acceptances bytes with
  | case1 | case2 | case3 => cases h
  | case4 =>
    cases h
    rfl
  | case5 bytes count later _ _ result taken rest hrest ih =>
    rw [hrest] at ih
    exact ih h
  | case6 _ _ _ _ _ ih => exact ih h
  | case7 failure =>
    cases h
    exact failure.isFormat_toLinkError

theorem failsAsLink : Device.FailsAsLink StreamLink := by
  constructor
  · intro bytes link e h
    have hoffer := @isFormat_of_offer link.acceptances bytes e
    simp only [Device.write, write] at h
    generalize offer link.acceptances bytes = offered at h hoffer
    obtain ⟨result, taken, later⟩ := offered
    split at h
    · cases h
      rfl
    · cases result with
      | error => exact hoffer h
      | ok =>
        simp only at h
        split at h
        · cases h
        · cases h
        · next failure flushes _ =>
          cases h
          exact failure.isFormat_toLinkError
  · intro stop link e h
    cases hopen : link.isOpen with
    | true =>
      have hread := congrArg Prod.fst (readThrough_eq hopen stop)
      exact Item.isFormat_of_take (hread.symm.trans h)
    | false =>
      simp only [Device.readThrough, readThrough, hopen] at h
      cases hline : link.buffer.takeThrough stop with
      | mk line buffer =>
        rw [hline] at h
        cases line <;> cases h
        rfl

end StreamLink

theorem Link.failsAsLink : Device.FailsAsLink Link := by
  constructor
  · intro bytes link e h
    cases link with
    | canned device => exact CannedDevice.failsAsLink.write bytes device e h
    | stream link => exact StreamLink.failsAsLink.write bytes link e h
  · intro stop link e h
    cases link with
    | canned device => exact CannedDevice.failsAsLink.readThrough stop device e h
    | stream link => exact StreamLink.failsAsLink.readThrough stop link e h

namespace Device.FailsAsLink

theorem surroundings {δ φ η : Type} [Device δ] [FileStore φ] [Host η] (h : FailsAsLink δ) :
    FailsAsLink (Surroundings δ φ η) :=
  ⟨fun bytes s => h.write bytes s.device, fun stop s => h.readThrough stop s.device⟩

theorem recorded {ε : Type} [Environment ε] (h : FailsAsLink ε) : FailsAsLink (Recorded ε) :=
  ⟨fun bytes r => h.write bytes r.around, fun stop r => h.readThrough stop r.around⟩

theorem isFormat_of_exchange {δ : Type} [Device δ] (h : FailsAsLink δ) {frame : Frame}
    {line : Bytes} (hline : frame.encode = .ok line) {device : δ} {e : LinkError}
    (hfails : (exchange frame device).1 = .error e) : e.isFormat = false := by
  have hwrite := h.write line device e
  simp only [exchange, hline] at hfails
  generalize Device.write line device = written at hfails hwrite
  obtain ⟨result, device'⟩ := written
  cases result with
  | error =>
    cases hfails
    exact hwrite rfl
  | ok =>
    have hread := h.readThrough terminator device' e
    simp only at hfails
    generalize Device.readThrough terminator device' = answer at hfails hread
    obtain ⟨result, device''⟩ := answer
    cases result with
    | error =>
      cases hfails
      exact hread rfl
    | ok => cases hfails

end Device.FailsAsLink

theorem ScriptError.isFormat_of_ofLink {e : LinkError} {error : FormatError}
    (h : ofLink e = .format error) : e.isFormat = true := by
  cases e <;> first | rfl | cases h

namespace Workspace

variable {ε : Type} [Environment ε]

theorem send_ne_format (hdevice : Device.FailsAsLink ε) {frame : Frame} {line : Bytes}
    (hline : frame.encode = .ok line) (w : Workspace ε) (error : FormatError) :
    (w.send frame).1 ≠ .error (.format error) := by
  intro h
  unfold send at h
  cases hout : exchange frame w.around with
  | mk result around =>
    rw [hout] at h
    cases result with
    | ok response => cases h
    | error e =>
      have hformat := ScriptError.isFormat_of_ofLink (Except.error.inj h)
      rw [hdevice.isFormat_of_exchange hline (congrArg Prod.fst hout)] at hformat
      cases hformat

end Workspace

namespace Engine

variable {ε : Type} [Environment ε]

theorem sendDigits_refuses (e : Engine ε) {text : Text}
    (h : ¬ Hex.WellFormed (hexDigits text)) :
    ∃ error, e.sendDigits text = (.error (.format (.hex error)), e) := by
  obtain ⟨error, herror⟩ := hexFrame_of_not_wellFormed e.settings.hexInlineLimit h
  refine ⟨error, ?_⟩
  simp only [sendDigits, Workspace.sendDigits, herror, Workspace.sendAny]
  rfl

theorem sendDigits_sends (e : Engine ε) (hvalid : e.settings.check = .ok ()) {text : Text}
    (h : Hex.WellFormed (hexDigits text)) :
    ∃ frame line, Inlines e.settings.hexInlineLimit text frame ∧ frame.encode = .ok line ∧
      e.sendDigits text
        = ((e.workspace.send frame).1, { e with workspace := (e.workspace.send frame).2 }) := by
  obtain ⟨frame, hframe, hinlines⟩ := hexFrame_of_wellFormed e.settings.hexInlineLimit h
  obtain ⟨line, hline⟩ := hinlines.exists_encode ((Settings.check_eq_ok_iff _).1 hvalid).2
  refine ⟨frame, line, hinlines, hline, ?_⟩
  simp only [sendDigits, Workspace.sendDigits, hframe, Workspace.sendAny]

/-- Hexadecimal text is refused exactly if it is not well formed, and then nothing happens. All
other text is sent in one exchange, as a frame that has an encoding whatever the limit is. An
exchange that fails leaves the last row and data as they were. -/
theorem sendDigits_accepts (hdevice : Device.FailsAsLink ε) (e : Engine (Recorded ε))
    (hvalid : e.settings.check = .ok ()) (text : Text) :
    ((∃ error, (e.sendDigits text).1 = .error (.format error))
      ↔ ¬ Hex.WellFormed (hexDigits text)) ∧
    (¬ Hex.WellFormed (hexDigits text) → (e.sendDigits text).2 = e) ∧
    (Hex.WellFormed (hexDigits text) → ∃ frame line,
      Inlines e.settings.hexInlineLimit text frame ∧ frame.encode = .ok line ∧
      Workspace.Sent (.ok frame) e.workspace
        ((e.sendDigits text).1, (e.sendDigits text).2.workspace) ∧
      (e.sendDigits text).2 = { e with workspace := (e.sendDigits text).2.workspace }) ∧
    (∀ length, (e.sendDigits text).1 ≠ .error (.format (.payloadTooLong length))) ∧
    ∀ error, (e.sendDigits text).1 = .error error →
      (e.sendDigits text).2.workspace.lastRow = e.workspace.lastRow ∧
      (e.sendDigits text).2.workspace.lastData = e.workspace.lastData := by
  by_cases h : Hex.WellFormed (hexDigits text)
  · obtain ⟨frame, line, hinlines, hline, hsend⟩ := e.sendDigits_sends hvalid h
    have hsent := Workspace.sent_sendAny (.ok frame) e.workspace
    have hnone := Workspace.send_ne_format hdevice.recorded hline e.workspace
    change Workspace.Sent (.ok frame) e.workspace (e.workspace.send frame) at hsent
    rw [hsend]
    refine ⟨⟨fun ⟨error, herror⟩ => absurd herror (hnone error), absurd h⟩, absurd h,
      fun _ => ⟨frame, line, hinlines, hline, hsent, rfl⟩, fun length => hnone _, ?_⟩
    intro error herror
    generalize e.workspace.send frame = outcome at hsent herror
    cases hsent with
    | unformed | unwritten | unanswered => exact ⟨rfl, rfl⟩
    | answered => cases herror
  · obtain ⟨error, herror⟩ := e.sendDigits_refuses h
    rw [herror]
    exact ⟨⟨fun _ => h, fun _ => ⟨_, rfl⟩⟩, fun _ => rfl, fun hwell => absurd hwell h,
      fun length => nofun, fun _ _ => ⟨rfl, rfl⟩⟩

def confirmed : Engine (Recorded (Surroundings Link MemoryFiles Transcript)) :=
  idle {} ⟨⟨.canned {}, {}, {}⟩, []⟩

/-- A tag in front and a space among the digits do no harm. Behind the tag of the other text stands
one character of two bytes: the length is odd with the tag, and what is left is no digit. -/
theorem sendDigits_accepts_tagged :
    Device.FailsAsLink (Surroundings Link MemoryFiles Transcript) ∧
      confirmed.settings.check = .ok () ∧
      hexDigits ['H', '0', ' ', 'a'] = ['0', 'a'] ∧ hexDigits ['H', 'é'] = ['é'] ∧
      (∃ frame line, Inlines 511 ['H', '0', ' ', 'a'] frame ∧ frame.encode = .ok line ∧
        Workspace.Sent (.ok frame) confirmed.workspace
          ((confirmed.sendDigits ['H', '0', ' ', 'a']).1,
            (confirmed.sendDigits ['H', '0', ' ', 'a']).2.workspace)) ∧
      ∃ error, (confirmed.sendDigits ['H', 'é']).1 = .error (.format error) := by
  have hdevice : Device.FailsAsLink (Surroundings Link MemoryFiles Transcript) :=
    Link.failsAsLink.surroundings
  have hvalid : confirmed.settings.check = .ok () := rfl
  have htagged : hexDigits ['H', '0', ' ', 'a'] = ['0', 'a'] := by
    rw [hexDigits_eq, if_pos (by decide)]
    rfl
  have hbroken : hexDigits ['H', 'é'] = ['é'] := by
    rw [hexDigits_eq, if_pos (by decide)]
    rfl
  have hdecode : Hex.decode (hexDigits ['H', '0', ' ', 'a']) = .ok [0x0A] := by
    rw [htagged]
    rfl
  have hwell : Hex.WellFormed (hexDigits ['H', '0', ' ', 'a']) :=
    Hex.wellFormed_of_decode hdecode (by rw [htagged]; exact List.cons_ne_nil _ _)
  have hwrong : ¬ Hex.WellFormed (hexDigits ['H', 'é']) := by
    rw [hbroken]
    exact fun h => absurd (h.digits 0xC3 (by decide)) (by decide)
  obtain ⟨-, -, hsends, -, -⟩ := sendDigits_accepts hdevice confirmed hvalid ['H', '0', ' ', 'a']
  obtain ⟨frame, line, hinlines, hline, hsent, -⟩ := hsends hwell
  have hrefuses := sendDigits_accepts hdevice confirmed hvalid ['H', 'é']
  exact ⟨hdevice, hvalid, htagged, hbroken, ⟨frame, line, hinlines, hline, hsent⟩,
    hrefuses.1.2 hwrong⟩

end Engine
end BenchScript
