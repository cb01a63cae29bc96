import BenchScript.Proofs.Reads

set_option autoImplicit false

namespace BenchScript

def frameBody (tag : Char) (payload : Bytes) : Bytes :=
  asciiByte tag :: UInt8.ofNat payload.length :: payload

theorem encode_binary {payload : Bytes} (h : payload.length ≤ maxPayload) (tag : Char) :
    (Frame.binary tag payload).encode = .ok (frameBody tag payload ++ [terminator]) := by
  rw [Frame.encode, if_neg (by omega)]
  rfl

theorem toNat_lengthByte {payload : Bytes} (h : payload.length ≤ maxPayload) :
    (UInt8.ofNat payload.length).toNat = payload.length := by
  have hlt : payload.length < 256 := Nat.lt_succ_of_le h
  rw [UInt8.toNat_ofNat']
  exact Nat.mod_eq_of_lt hlt

theorem framePayload?_frameBody {tag : Char} (htag : tag = dataTag ∨ tag = checksumTag)
    {payload : Bytes} (h : payload.length ≤ maxPayload) :
    framePayload? (frameBody tag payload) = some payload := by
  unfold framePayload? frameBody
  refine if_pos ⟨?_, toNat_lengthByte h⟩
  rcases htag with rfl | rfl
  · exact Or.inl rfl
  · exact Or.inr rfl

/-- What is left of a frame that was cut has no payload, for its length byte is too large. -/
theorem framePayload?_cut {tag : Char} {payload before after : Bytes} {b : UInt8}
    (h : payload.length ≤ maxPayload) (hcut : frameBody tag payload = before ++ b :: after) :
    framePayload? before = none := by
  match before, hcut with
  | [], _ => rfl
  | [_], _ => rfl
  | first :: length :: rest, hcut =>
    simp only [frameBody, List.cons_append, List.cons.injEq] at hcut
    obtain ⟨-, rfl, hpayload⟩ := hcut
    have hlength := congrArg List.length hpayload
    rw [List.length_append, List.length_cons] at hlength
    unfold framePayload?
    refine if_neg fun hmatch => ?_
    have hbyte := hmatch.2
    rw [toNat_lengthByte h] at hbyte
    omega

theorem dropTerminator_terminated (body : Bytes) :
    dropTerminator (body ++ [terminator]) = body := by
  unfold dropTerminator
  rw [if_pos (List.getLast?_concat ..), List.dropLast_concat]

theorem ofLine_terminated (body : Bytes) :
    Response.ofLine (body ++ [terminator])
      = ⟨Utf8.decodeLenient body, (framePayload? body).getD []⟩ := by
  unfold Response.ofLine
  simp only [dropTerminator_terminated]

namespace StreamLink

theorem items_write (bytes : Bytes) (link : StreamLink) :
    (link.write bytes).2.items = link.items ∧ (link.write bytes).2.isOpen = link.isOpen := by
  unfold write
  split
  · exact ⟨rfl, rfl⟩
  · split
    · exact ⟨rfl, rfl⟩
    · simp only
      split <;> exact ⟨rfl, rfl⟩

/-- The line that comes first is what is read, and no more is used up. -/
theorem readThrough_line {link : StreamLink} (hopen : link.isOpen = true) {body : Bytes}
    (hbody : terminator ∉ body) {later : List Item}
    (hitems : link.items = (body ++ [terminator]).map .byte ++ later) :
    (link.readThrough terminator).1 = .ok (body ++ [terminator]) ∧
      (link.readThrough terminator).2.items = later := by
  have hread := readThrough_eq hopen terminator
  rw [hitems, List.map_append, List.append_assoc, Item.take_of_not_mem hbody] at hread
  exact Prod.mk.inj hread

/-- An exchange takes what comes before the first terminator for its answer. -/
theorem exchange_line {link : StreamLink} (hopen : link.isOpen = true) {sent : Frame}
    {request : Bytes} (hsent : sent.encode = .ok request) (hwrite : (link.write request).1 = .ok ())
    {body : Bytes} (hbody : terminator ∉ body) {later : List Item}
    (hitems : link.items = (body ++ [terminator]).map .byte ++ later) :
    (exchange sent link).1 = .ok ⟨Utf8.decodeLenient body, (framePayload? body).getD []⟩ ∧
      (exchange sent link).2.items = later := by
  obtain ⟨hkept, hstill⟩ := items_write request link
  obtain ⟨hline, hlater⟩ := readThrough_line (hstill.trans hopen) hbody (hkept.trans hitems)
  have hwritten : Device.write request link = (.ok (), (link.write request).2) :=
    Prod.ext hwrite rfl
  have hanswer : Device.readThrough terminator (link.write request).2
      = (.ok (body ++ [terminator]), ((link.write request).2.readThrough terminator).2) :=
    Prod.ext hline rfl
  unfold exchange
  simp only [hsent, hwritten, hanswer]
  exact ⟨by rw [ofLine_terminated], hlater⟩

/-- When a device answers with a binary frame and more, the answer is the frame's payload, and what
is read next begins behind the frame, exactly if no terminator stands before its end. -/
theorem exchange_framed {tag : Char} (htag : tag = dataTag ∨ tag = checksumTag) {payload : Bytes}
    (hlength : payload.length ≤ maxPayload) :
    ∃ reply, (Frame.binary tag payload).encode = .ok reply ∧
      ∀ (link : StreamLink) (sent : Frame) (request : Bytes) (further : List Item),
        link.isOpen = true → sent.encode = .ok request → (link.write request).1 = .ok () →
        link.items = reply.map .byte ++ further →
        ∃ response, (exchange sent link).1 = .ok response ∧
          (response.data = payload ↔ terminator ∉ UInt8.ofNat payload.length :: payload) ∧
          ((exchange sent link).2.items = further
            ↔ terminator ∉ UInt8.ofNat payload.length :: payload) := by
  refine ⟨_, encode_binary hlength tag, ?_⟩
  intro link sent request further hopen hsent hwrite hitems
  have htagByte : asciiByte tag ≠ terminator := by
    rcases htag with rfl | rfl <;> decide
  by_cases hcut : terminator ∈ UInt8.ofNat payload.length :: payload
  · have hbody : terminator ∈ frameBody tag payload := List.mem_cons_of_mem _ hcut
    obtain ⟨before, after, heq, hbefore⟩ := List.eq_append_cons_of_mem hbody
    have hfirst : link.items = (before ++ [terminator]).map .byte
        ++ ((after ++ [terminator]).map .byte ++ further) := by
      rw [hitems, heq]
      simp
    obtain ⟨hresponse, hleft⟩ := exchange_line hopen hsent hwrite hbefore hfirst
    have hnot := not_not_intro hcut
    refine ⟨_, hresponse, iff_of_false ?_ hnot, iff_of_false ?_ hnot⟩
    · rw [framePayload?_cut hlength heq]
      intro hnil
      change [] = payload at hnil
      subst hnil
      exact absurd hcut (by decide)
    · rw [hleft]
      intro hsame
      have hcount := congrArg List.length hsame
      simp only [List.length_append, List.length_map, List.length_cons] at hcount
      omega
  · have hwhole : terminator ∉ frameBody tag payload := by
      simp only [frameBody, List.mem_cons, not_or] at hcut ⊢
      exact ⟨Ne.symm htagByte, hcut⟩
    obtain ⟨hresponse, hleft⟩ := exchange_line hopen hsent hwrite hwhole hitems
    refine ⟨_, hresponse, ?_, ?_⟩
    · rw [framePayload?_frameBody htag hlength]
      exact iff_of_true rfl hcut
    · exact iff_of_true hleft hcut

theorem exchange_framed_in_pieces :
    let link := connect [.bytes [0x44], .bytes [2, 0xFF], .bytes [0, 0x0A, 7]] [] []
    (exchange (.text ['P']) link).1.map Response.data = .ok [0xFF, 0] ∧
      (exchange (.text ['P']) link).2.items = [.byte 7] := by
  intro link
  have hlength : ([0xFF, 0] : Bytes).length ≤ maxPayload := by decide
  obtain ⟨reply, hreply, hexchange⟩ := exchange_framed (Or.inl rfl) hlength
  cases hreply
  have hitems : link.items
      = [0x44, 2, 0xFF, 0, 0x0A].map .byte ++ [.byte 7] := items_connect _ [] []
  obtain ⟨response, hresponse, hdata, hnext⟩ :=
    hexchange link (.text ['P']) _ [.byte 7] rfl rfl rfl hitems
  rw [hresponse]
  exact ⟨congrArg Except.ok (hdata.2 (by decide)), hnext.2 (by decide)⟩

/-- A payload of two bytes, the first of them a terminator, does not come through. -/
theorem exchange_cut_at_terminator :
    let link := connect [.bytes [0x44, 2, 0x0A, 0x0B, 0x0A]] [] []
    (Frame.binary dataTag [0x0A, 0x0B]).encode = .ok [0x44, 2, 0x0A, 0x0B, 0x0A] ∧
      (exchange (.text ['P']) link).1 = .ok ⟨['D', '\x02'], []⟩ ∧
      ((exchange (.text ['P']) link).2.readThrough terminator).1 = .ok [0x0B, 0x0A] := by
  intro link
  have hlink : link = { arrivals := [.bytes [0x44, 2, 0x0A, 0x0B, 0x0A]] } :=
    connect_of_le (by simp [readLimit]) [] []
  rw [hlink]
  exact ⟨rfl, rfl, rfl⟩

end StreamLink
end BenchScript
