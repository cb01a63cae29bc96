import BenchScript.Yaml.Node

set_option autoImplicit false

namespace BenchScript.Yaml

namespace Reader

variable {α β : Type} {s : Source}

/-- Two readers do the same, and use up so many tokens at least if they read anything. -/
structure Same (used : α → Nat) (r r' : Reader α) (s : Source) : Prop where
  eq : r s = r' s
  uses : ∀ a after, r s = some (a, after) → after.tokens.length + used a ≤ s.tokens.length

section Steps

variable {used used' : α → Nat} {total : β → Nat} {r r' : Reader α} {f f' : α → Reader β}

theorem same_pure {a : α} (h : used a = 0) : Same used (pure a) (pure a) s := by
  refine ⟨rfl, fun b after hread => ?_⟩
  cases hread
  rw [h]
  exact Nat.le_refl _

theorem same_failure : Same used (failure : Reader α) failure s :=
  ⟨rfl, fun _ _ hread => (by cases hread)⟩

theorem Same.weaken (h : Same used r r' s) (hle : ∀ a, used' a ≤ used a) : Same used' r r' s :=
  ⟨h.eq, fun a after hread => Nat.le_trans (Nat.add_le_add_left (hle a) _) (h.uses a after hread)⟩

theorem bind_apply (r : Reader α) (f : α → Reader β) (s : Source) :
    (r >>= f) s = (r s).bind fun read => f read.1 read.2 := rfl

theorem Same.bind (h : Same used r r' s)
    (hf : ∀ a after, after.tokens.length + used a ≤ s.tokens.length →
      Same (fun b => total b - used a) (f a) (f' a) after) :
    Same total (r >>= f) (r' >>= f') s := by
  constructor
  · rw [bind_apply, bind_apply, ← h.eq]
    refine Option.bind_congr fun read hread => ?_
    exact (hf read.1 read.2 (h.uses _ _ hread)).eq
  · intro b after hread
    rw [bind_apply] at hread
    obtain ⟨⟨a, middle⟩, ha, hb⟩ := Option.bind_eq_some_iff.1 hread
    have hfirst := h.uses a middle ha
    have hthen := (hf a middle hfirst).uses b after hb
    omega

/-- What is done on a source may be done on a later one, which has `n` tokens less at least. -/
theorem Same.from {q q' : Reader α} {later : Source} {n : Nat}
    (h : Same (fun a => used a - n) q q' later) (hr : r s = q later) (hr' : r' s = q' later)
    (hn : later.tokens.length + n ≤ s.tokens.length) : Same used r r' s := by
  refine ⟨hr.trans (h.eq.trans hr'.symm), fun a after hread => ?_⟩
  have hlater := h.uses a after (hr.symm.trans hread)
  omega

theorem same_get {f f' : Source → Reader β} (h : Same total (f s) (f' s) s) :
    Same total (get >>= f) (get >>= f') s :=
  h.from (n := 0) rfl rfl (Nat.le_refl _)

theorem same_next {f f' : Option Token → Reader β}
    (h : Same total (f s.tokens.head?) (f' s.tokens.head?) s) :
    Same total (next? >>= f) (next? >>= f') s :=
  h.from (n := 0) rfl rfl (Nat.le_refl _)

theorem same_skip {f f' : Unit → Reader β} {token : Token} (hhead : s.tokens.head? = some token)
    (h : ∀ later, later.tokens.length + 1 = s.tokens.length →
      Same (fun b => total b - 1) (f ()) (f' ()) later) :
    Same total (skip >>= f) (skip >>= f') s := by
  obtain ⟨rest, hs⟩ := List.head?_eq_some_iff.1 hhead
  have hlength : s.tokens.tail.length + 1 = s.tokens.length := by rw [hs]; rfl
  exact (h { s with tokens := s.tokens.tail } hlength).from rfl rfl (Nat.le_of_eq hlength)

theorem skipIf_apply (token : Token) (s : Source) :
    skipIf token s = if s.tokens.head? = some token then
      some (true, { s with tokens := s.tokens.tail }) else some (false, s) := by
  change (if s.tokens.head? = some token then (do skip; return true : Reader Bool)
    else return false) s = _
  split
  · rfl
  · rfl

theorem same_skipIf {f f' : Bool → Reader β} (token : Token)
    (htrue : ∀ later, later.tokens.length + 1 = s.tokens.length →
      Same (fun b => total b - 1) (f true) (f' true) later)
    (hfalse : s.tokens.head? ≠ some token → Same total (f false) (f' false) s) :
    Same total (skipIf token >>= f) (skipIf token >>= f') s := by
  by_cases hhead : s.tokens.head? = some token
  · obtain ⟨rest, hs⟩ := List.head?_eq_some_iff.1 hhead
    have hlength : s.tokens.tail.length + 1 = s.tokens.length := by rw [hs]; rfl
    refine (htrue { s with tokens := s.tokens.tail } hlength).from ?_ ?_ (Nat.le_of_eq hlength)
    · rw [bind_apply, skipIf_apply, if_pos hhead, Option.bind_some]
    · rw [bind_apply, skipIf_apply, if_pos hhead, Option.bind_some]
  · refine (hfalse hhead).from (n := 0) ?_ ?_ (Nat.le_refl _)
    · rw [bind_apply, skipIf_apply, if_neg hhead, Option.bind_some]
    · rw [bind_apply, skipIf_apply, if_neg hhead, Option.bind_some]

theorem same_giveName {f f' : Unit → Reader β} (name : Option Text) (scalar : Option Scalar)
    (h : ∀ later, later.tokens = s.tokens → Same total (f ()) (f' ()) later) :
    Same total (giveName name scalar >>= f) (giveName name scalar >>= f') s := by
  cases name with
  | none => exact (h s rfl).from (n := 0) rfl rfl (Nat.le_refl _)
  | some name =>
    exact (h { s with anchors := s.anchors.add name scalar } rfl).from (n := 0) rfl rfl
      (Nat.le_refl _)

end Steps

theorem same_anchor? : Same (fun a => a.isSome.toNat) anchor? anchor? s := by
  refine same_next ?_
  split
  · next name hhead => exact same_skip hhead fun _ _ => same_pure rfl
  · exact same_pure rfl

theorem same_tagOf (name : TagName) : Same (fun _ => 0) (tagOf name) (tagOf name) s := by
  unfold tagOf
  split
  · exact same_pure rfl
  · refine same_get ?_
    split
    · exact same_pure rfl
    · exact same_failure

theorem same_tag? : Same (fun a => a.isSome.toNat) tag? tag? s := by
  refine same_next ?_
  split
  · next name hhead =>
    exact same_skip hhead fun _ _ => (same_tagOf name).bind fun _ _ _ => same_pure rfl
  · exact same_pure rfl

theorem same_number (name : Text) : Same (fun _ => 0) (number name) (number name) s := by
  refine same_get ?_
  split
  · exact same_pure rfl
  · exact same_failure

theorem same_isNext (tokens : List Token) : Same (fun _ => 0) (isNext tokens) (isNext tokens) s :=
  same_next (same_pure rfl)

theorem same_separator (isFirst : Bool) :
    Same (fun _ => 0) (separator isFirst) (separator isFirst) s := by
  cases isFirst with
  | true => exact same_pure rfl
  | false => exact same_skipIf .comma (fun _ _ => same_pure rfl) fun _ => same_failure

theorem same_scalar (name : Option Text) (value : Scalar) :
    Same (fun _ => 0) (scalar name value) (scalar name value) s :=
  same_giveName name (some value) fun _ _ => same_pure rfl

/-- With `n` turns everything is read as it is with `m`, if both are enough for the tokens left. -/
structure Steady (n m : Nat) : Prop where
  node : ∀ inBlock afterKey s, 4 * s.tokens.length + 2 ≤ n → 4 * s.tokens.length + 2 ≤ m →
    Same (fun _ => 1) (node n inBlock afterKey) (node m inBlock afterKey) s
  nodeBefore : ∀ stops inBlock afterKey s, 4 * s.tokens.length + 3 ≤ n →
    4 * s.tokens.length + 3 ≤ m →
    Same (fun _ => 0) (nodeBefore n stops inBlock afterKey) (nodeBefore m stops inBlock afterKey) s
  blockItems : ∀ s, 4 * s.tokens.length + 1 ≤ n → 4 * s.tokens.length + 1 ≤ m →
    Same (fun _ => 0) (blockItems n) (blockItems m) s
  keyItems : ∀ s, 4 * s.tokens.length + 1 ≤ n → 4 * s.tokens.length + 1 ≤ m →
    Same (fun _ => if s.tokens.head? = some .item then 1 else 0) (keyItems n) (keyItems m) s
  blockEntries : ∀ s, 4 * s.tokens.length + 1 ≤ n → 4 * s.tokens.length + 1 ≤ m →
    Same (fun _ => 0) (blockEntries n) (blockEntries m) s
  flowValue : ∀ close s, 4 * s.tokens.length + 1 ≤ n → 4 * s.tokens.length + 1 ≤ m →
    Same (fun _ => 0) (flowValue n close) (flowValue m close) s
  flowItems : ∀ isFirst s, 4 * s.tokens.length + 3 ≤ n → 4 * s.tokens.length + 3 ≤ m →
    Same (fun _ => 0) (flowItems n isFirst) (flowItems m isFirst) s
  flowEntries : ∀ isFirst s, 4 * s.tokens.length + 3 ≤ n → 4 * s.tokens.length + 3 ≤ m →
    Same (fun _ => 0) (flowEntries n isFirst) (flowEntries m isFirst) s

section Turns

variable {n m : Nat}

theorem same_nodeBefore (h : Steady n m) (stops : List Token) (inBlock afterKey : Bool)
    (hn : 4 * s.tokens.length + 2 ≤ n) (hm : 4 * s.tokens.length + 2 ≤ m) :
    Same (fun _ => 0) (nodeBefore (n + 1) stops inBlock afterKey)
      (nodeBefore (m + 1) stops inBlock afterKey) s := by
  rw [nodeBefore, nodeBefore]
  refine (same_isNext stops).bind fun isStop after _ => ?_
  cases isStop with
  | true => exact same_pure rfl
  | false =>
    exact (h.node inBlock afterKey after (by omega) (by omega)).weaken fun _ => Nat.zero_le _

theorem same_blockItems (h : Steady n m) (hn : 4 * s.tokens.length ≤ n)
    (hm : 4 * s.tokens.length ≤ m) :
    Same (fun _ => 0) (blockItems (n + 1)) (blockItems (m + 1)) s := by
  rw [blockItems, blockItems]
  refine same_skipIf .blockEnd (fun _ _ => same_pure rfl) fun _ => ?_
  refine same_skipIf .item (fun later _ => ?_) fun _ => same_failure
  refine (h.nodeBefore _ _ _ later (by omega) (by omega)).bind fun item after _ => ?_
  exact (h.blockItems after (by omega) (by omega)).bind fun _ _ _ => same_pure rfl

theorem same_keyItems (h : Steady n m) (hn : 4 * s.tokens.length ≤ n)
    (hm : 4 * s.tokens.length ≤ m) :
    Same (fun _ => if s.tokens.head? = some .item then 1 else 0) (keyItems (n + 1))
      (keyItems (m + 1)) s := by
  rw [keyItems, keyItems]
  refine same_skipIf .item (fun later _ => ?_) fun hhead => same_pure (if_neg hhead)
  refine (h.nodeBefore _ _ _ later (by omega) (by omega)).bind fun item after _ => ?_
  refine (h.keyItems after (by omega) (by omega)).bind fun _ _ _ => same_pure ?_
  split <;> omega

theorem same_blockEntries (h : Steady n m) (hn : 4 * s.tokens.length ≤ n)
    (hm : 4 * s.tokens.length ≤ m) :
    Same (fun _ => 0) (blockEntries (n + 1)) (blockEntries (m + 1)) s := by
  rw [blockEntries, blockEntries]
  refine same_skipIf .blockEnd (fun _ _ => same_pure rfl) fun _ => ?_
  refine same_skipIf .key (fun later _ => ?_) fun _ => same_failure
  refine (h.nodeBefore _ _ _ later (by omega) (by omega)).bind fun key after _ => ?_
  refine same_skipIf .value (fun behind _ => ?_) fun _ => ?_
  · refine (h.nodeBefore _ _ _ behind (by omega) (by omega)).bind fun value last _ => ?_
    exact (h.blockEntries last (by omega) (by omega)).bind fun _ _ _ => same_pure rfl
  · exact (h.blockEntries after (by omega) (by omega)).bind fun _ _ _ => same_pure rfl

theorem same_flowValue (h : Steady n m) (close : Token) (hn : 4 * s.tokens.length ≤ n)
    (hm : 4 * s.tokens.length ≤ m) :
    Same (fun _ => 0) (flowValue (n + 1) close) (flowValue (m + 1) close) s := by
  rw [flowValue, flowValue]
  refine same_skipIf .value (fun later _ => ?_) fun _ => same_pure rfl
  exact h.nodeBefore _ _ _ later (by omega) (by omega)

/-- A pair of a flow sequence behind its key, and the items after it. -/
theorem same_pair (h : Steady n m) (key : Node) (hn : 4 * s.tokens.length + 3 ≤ n)
    (hm : 4 * s.tokens.length + 3 ≤ m) :
    Same (fun _ => 0)
      (flowValue n .closeList >>= fun value => flowItems n false >>= fun items =>
        pure (Node.mapping [(key, value)] :: items))
      (flowValue m .closeList >>= fun value => flowItems m false >>= fun items =>
        pure (Node.mapping [(key, value)] :: items)) s := by
  refine (h.flowValue _ s (by omega) (by omega)).bind fun value after _ => ?_
  exact (h.flowItems false after (by omega) (by omega)).bind fun _ _ _ => same_pure rfl

theorem same_flowItems (h : Steady n m) (isFirst : Bool) (hn : 4 * s.tokens.length + 2 ≤ n)
    (hm : 4 * s.tokens.length + 2 ≤ m) :
    Same (fun _ => 0) (flowItems (n + 1) isFirst) (flowItems (m + 1) isFirst) s := by
  rw [flowItems, flowItems]
  refine same_skipIf .closeList (fun _ _ => same_pure rfl) fun _ => ?_
  refine (same_separator isFirst).bind fun _ start _ => ?_
  refine same_skipIf .closeList (fun _ _ => same_pure rfl) fun _ => ?_
  refine same_skipIf .key (fun later _ => ?_) fun _ => ?_
  · refine (same_isNext _).bind fun isMissing after _ => ?_
    cases isMissing with
    | true =>
      have htail : after.tokens.tail.length ≤ after.tokens.length := by
        rw [List.length_tail]
        exact Nat.sub_le _ _
      have hpair := same_pair (s := { after with tokens := after.tokens.tail }) h .missing
        (by simp only; omega) (by simp only; omega)
      exact hpair.from (n := 0) rfl rfl htail
    | false =>
      refine (h.node false false after (by omega) (by omega)).bind fun key last _ => ?_
      exact (same_pair h key (by omega) (by omega)).weaken fun _ => Nat.zero_le _
  · refine (h.node false false start (by omega) (by omega)).bind fun item after _ => ?_
    exact (h.flowItems false after (by omega) (by omega)).bind fun _ _ _ => same_pure rfl

theorem same_flowEntries (h : Steady n m) (isFirst : Bool) (hn : 4 * s.tokens.length + 2 ≤ n)
    (hm : 4 * s.tokens.length + 2 ≤ m) :
    Same (fun _ => 0) (flowEntries (n + 1) isFirst) (flowEntries (m + 1) isFirst) s := by
  rw [flowEntries, flowEntries]
  refine same_skipIf .closeMap (fun _ _ => same_pure rfl) fun _ => ?_
  refine (same_separator isFirst).bind fun _ start _ => ?_
  refine same_skipIf .closeMap (fun _ _ => same_pure rfl) fun _ => ?_
  refine same_skipIf .key (fun later _ => ?_) fun _ => ?_
  · refine (h.nodeBefore _ _ _ later (by omega) (by omega)).bind fun key after _ => ?_
    refine (h.flowValue _ after (by omega) (by omega)).bind fun value last _ => ?_
    exact (h.flowEntries false last (by omega) (by omega)).bind fun _ _ _ => same_pure rfl
  · refine (h.node false false start (by omega) (by omega)).bind fun key after _ => ?_
    exact (h.flowEntries false after (by omega) (by omega)).bind fun _ _ _ => same_pure rfl

/-- The anchor may stand behind the tag if none stood in front of it. -/
theorem same_anchorBehind {total : Node → Nat} {f f' : Option Text → Reader Node}
    (anchor : Option Text)
    (h : ∀ (anchor' : Option Text) (after : Source),
      after.tokens.length + anchor'.isSome.toNat ≤ s.tokens.length + anchor.isSome.toNat →
      Same (fun b => total b - (anchor'.isSome.toNat - anchor.isSome.toNat)) (f anchor')
        (f' anchor') after) :
    Same total (if anchor.isNone then anchor? >>= f else pure anchor >>= f)
      (if anchor.isNone then anchor? >>= f' else pure anchor >>= f') s := by
  cases anchor with
  | none => exact same_anchor?.bind h
  | some name => exact (h (some name) s (Nat.le_refl _)).from (n := 0) rfl rfl (Nat.le_refl _)

/-- A collection behind the token that begins it. -/
theorem same_collection {token : Token} {k : Nat} {r r' : Reader α} (anchor : Option Text)
    (make : α → Node) (hhead : s.tokens.head? = some token) (hk : k ≤ 1)
    (h : ∀ later, later.tokens.length + 1 = s.tokens.length → Same (fun _ => 0) r r' later) :
    Same (fun _ => k)
      (skip >>= fun _ => giveName anchor none >>= fun _ => r >>= fun a => pure (make a))
      (skip >>= fun _ => giveName anchor none >>= fun _ => r' >>= fun a => pure (make a)) s := by
  refine same_skip hhead fun later hlater => same_giveName anchor none fun named hnamed => ?_
  exact (h named (by rw [hnamed, hlater])).bind fun _ _ _ => same_pure (by omega)

theorem same_node (h : Steady n m) (inBlock afterKey : Bool) (hn : 4 * s.tokens.length + 1 ≤ n)
    (hm : 4 * s.tokens.length + 1 ≤ m) :
    Same (fun _ => 1) (node (n + 1) inBlock afterKey) (node (m + 1) inBlock afterKey) s := by
  rw [node, node]
  refine same_next ?_
  split
  · next name hhead =>
    exact same_skip hhead fun _ _ => (same_number name).bind fun _ _ _ => same_pure rfl
  · refine same_anchor?.bind fun anchor start _ => ?_
    refine same_tag?.bind fun tag middle _ => ?_
    refine same_anchorBehind anchor fun anchor' after _ => ?_
    refine same_next ?_
    split
    · next style text hhead =>
      exact same_skip hhead fun _ _ => (same_scalar _ _).weaken fun _ => by omega
    · next hhead =>
      exact same_collection _ _ hhead (by omega) fun later _ =>
        h.flowItems true later (by omega) (by omega)
    · next hhead =>
      exact same_collection _ _ hhead (by omega) fun later _ =>
        h.flowEntries true later (by omega) (by omega)
    · split
      · next hitem =>
        refine same_giveName _ _ fun named hnamed => ?_
        refine (h.keyItems named (by rw [hnamed]; omega) (by rw [hnamed]; omega)).bind
          fun _ _ _ => same_pure ?_
        rw [hnamed, if_pos hitem.1]
        omega
      · split
        · next hbegin =>
          exact same_collection _ _ hbegin.1 (by omega) fun later _ =>
            h.blockItems later (by omega) (by omega)
        · split
          · next hbegin =>
            exact same_collection _ _ hbegin.1 (by omega) fun later _ =>
              h.blockEntries later (by omega) (by omega)
          · split
            · next hgiven =>
              -- An empty scalar takes no token of its own, but its anchor or tag did.
              have hone : 1 ≤ anchor'.isSome.toNat + tag.isSome.toNat := by
                rcases Bool.or_eq_true_iff.1 hgiven with hsome | hsome
                · rw [hsome]
                  exact Nat.le_add_right _ _
                · rw [hsome]
                  exact Nat.le_add_left _ _
              exact (same_scalar _ _).weaken fun _ => by omega
            · exact same_failure

end Turns

theorem steady (n m : Nat) : Steady n m := by
  -- A reader calls the others with one turn less, so all of them go through one induction.
  induction n generalizing m with
  | zero => constructor <;> intros <;> omega
  | succ n ih =>
    cases m with
    | zero => constructor <;> intros <;> omega
    | succ m =>
      have h := ih m
      exact {
        node := fun inBlock afterKey s hn hm =>
          same_node h inBlock afterKey (by omega) (by omega)
        nodeBefore := fun stops inBlock afterKey s hn hm =>
          same_nodeBefore h stops inBlock afterKey (by omega) (by omega)
        blockItems := fun s hn hm => same_blockItems h (by omega) (by omega)
        keyItems := fun s hn hm => same_keyItems h (by omega) (by omega)
        blockEntries := fun s hn hm => same_blockEntries h (by omega) (by omega)
        flowValue := fun close s hn hm => same_flowValue h close (by omega) (by omega)
        flowItems := fun isFirst s hn hm => same_flowItems h isFirst (by omega) (by omega)
        flowEntries := fun isFirst s hn hm => same_flowEntries h isFirst (by omega) (by omega) }

/-- The turns bound the depth of the reading and never its result. -/
theorem node_eq {n m : Nat} (inBlock afterKey : Bool) (hn : 4 * s.tokens.length + 2 ≤ n)
    (hm : 4 * s.tokens.length + 2 ≤ m) : node n inBlock afterKey s = node m inBlock afterKey s :=
  ((steady n m).node inBlock afterKey s hn hm).eq

theorem length_lt_of_node {n : Nat} {inBlock afterKey : Bool} {root : Node} {after : Source}
    (hn : 4 * s.tokens.length + 2 ≤ n) (h : node n inBlock afterKey s = some (root, after)) :
    after.tokens.length < s.tokens.length :=
  ((steady n n).node inBlock afterKey s hn hn).uses root after h

end Reader

theorem documentOf_eq (turns : Nat → Nat) (h : ∀ length, 4 * length + 2 ≤ turns length)
    (tokens : List Token) :
    documentOf tokens = (do
      let (handles, isEmpty, body) ← documentBody tokens
      let read : Reader Node :=
        if isEmpty then pure .missing else Reader.node (turns body.length) true false
      let (root, source) ← read.run { tokens := body, handles := handles }
      if source.tokens.all (· = .documentEnd) then return ⟨root, source.anchors⟩
      else none) := by
  rw [documentOf]
  refine Option.bind_congr fun found _ => ?_
  obtain ⟨handles, isEmpty, body⟩ := found
  cases isEmpty with
  | true => rfl
  | false =>
    have hnode := Reader.node_eq (s := { tokens := body, handles := handles }) true false
      (n := 4 * body.length + 4) (Nat.add_le_add_left (by decide) _) (h body.length)
    exact congrArg (Option.bind · _) hnode

end BenchScript.Yaml
