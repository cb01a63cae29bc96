import BenchScript.Launch.Request
import BenchScript.Proofs.Cutting
import BenchScript.Proofs.Numerals
import BenchScript.Proofs.Sealing
import Mathlib.Data.List.Infix

set_option autoImplicit false

/-!
# Command lines

Whatever a command line is read as can be written down as a command line again, and is read back as
it was. A scan keeps to values that fit their parameters, and so an order that is read can be
written; each word that is written takes the scan one option further.
-/
namespace BenchScript

namespace CommandLine

section Given

variable {found found' : Found} {p : Parameter} {value : Text}

theorem number32?_lt {text : Text} {n : Nat} (h : number32? text = some n) : n < UInt32.size := by
  unfold number32? at h
  split at h
  next digits isNegative hsign =>
  split at h
  · cases h
  · simp only at h
    split at h
    · next hbound =>
      cases h
      exact hbound.1
    · cases h

structure Fits (p : Parameter) (value : Text) : Prop where
  path : p.shape = .path → value ≠ []
  number : p.shape = .number → (number32? value).isSome

theorem Found.give_eq_ok_iff : found.give p value = .ok found' ↔
    found.values.contains p = false ∧ Fits p value ∧
      { found with values := found.values.insert p value } = found' := by
  unfold give
  cases hold : found.values.contains p with
  | true => simp
  | false =>
    simp only [Bool.false_eq_true, if_false, true_and]
    split
    · next hshape =>
      split
      · next hvalue =>
        exact ⟨fun h => (by cases h), fun h => absurd hvalue (h.1.path hshape)⟩
      · next hvalue =>
        rw [Except.ok.injEq, iff_and_self]
        exact fun _ => ⟨fun _ => hvalue, fun hnumber => by rw [hshape] at hnumber; cases hnumber⟩
    · next hshape =>
      cases hread : number32? value with
      | none =>
        refine ⟨fun h => (by cases h), fun h => ?_⟩
        have hsome := h.1.number hshape
        rw [hread] at hsome
        cases hsome
      | some n =>
        simp only [Except.ok.injEq, iff_and_self]
        refine fun _ => ⟨fun hpath => ?_, fun _ => by rw [hread]; rfl⟩
        rw [hshape] at hpath
        cases hpath
    · next hpath hnumber =>
      rw [Except.ok.injEq, iff_and_self]
      exact fun _ => ⟨fun h => absurd h hpath, fun h => absurd h hnumber⟩

structure Found.Sound (found : Found) : Prop where
  fits : ∀ p value, found.values.get? p = some value → Fits p value
  count : found.count ≤ maxCount

theorem Found.Sound.give (h : found.Sound) (hgive : found.give p value = .ok found') :
    found'.Sound := by
  obtain ⟨-, hfits, rfl⟩ := give_eq_ok_iff.1 hgive
  refine ⟨fun other value' hget => ?_, h.count⟩
  rw [Table.get?_insert] at hget
  split at hget
  · next hsame =>
    cases hget
    rw [← hsame]
    exact hfits
  · exact h.fits other value' hget

theorem Found.sound_empty : Found.Sound {} :=
  ⟨fun _ _ hget => (by cases hget), Nat.zero_le _⟩

end Given

namespace Scan

variable {s s' : Scan} {p : Parameter} {value word : Text} {accepted : List Parameter}

theorem sound_settle (h : s.found.Sound) (hs : s.settle = .ok s') : s'.found.Sound := by
  unfold settle at hs
  split at hs
  · cases hs
    exact h
  · cases hs
  · split at hs
    · next hgive =>
      cases hs
      exact h.give hgive
    · cases hs

theorem sound_attach (h : s.found.Sound) (hs : s.attach p value = .ok s') : s'.found.Sound := by
  unfold attach at hs
  split at hs
  · cases hs
  · next hsettle =>
    split at hs
    · next hgive =>
      cases hs
      exact (sound_settle h hsettle).give hgive
    · cases hs

theorem sound_touch (h : s.found.Sound) (hs : s.touch p = .ok s') : s'.found.Sound := by
  unfold touch at hs
  split at hs
  · cases hs
  · next settled hsettle =>
    have hsound := sound_settle h hsettle
    split at hs
    · cases hs
    · cases hs
      exact ⟨hsound.fits, Nat.min_le_left _ _⟩
    · split at hs
      · next hgive =>
        cases hs
        exact hsound.give hgive
      · cases hs

theorem sound_await (h : s.found.Sound) (hs : s.await p = .ok s') : s'.found.Sound := by
  unfold await at hs
  split at hs
  · cases hs
  · next hsettle =>
    have hsound := sound_settle h hsettle
    cases hs
    exact hsound

theorem sound_takeLong (h : s.found.Sound) (hs : s.takeLong accepted word = .ok s') :
    s'.found.Sound := by
  unfold takeLong at hs
  simp only at hs
  split at hs
  · cases hs
  · split at hs
    · exact sound_attach h hs
    · exact sound_await h hs
    · cases hs
    · exact sound_touch h hs

theorem sound_takeShorts (h : s.found.Sound) (hs : s.takeShorts accepted word = .ok s') :
    s'.found.Sound := by
  induction word generalizing s with
  | nil =>
    cases hs
    exact h
  | cons c rest ih =>
    rw [takeShorts] at hs
    split at hs
    · cases hs
    · split at hs
      · split at hs
        · exact sound_await h hs
        · exact sound_attach h hs
      · split at hs
        · next htouch => exact ih (sound_touch h htouch) hs
        · cases hs

theorem eq_ok_of_ofScan {e : Except UsageError Scan} (h : Reading.ofScan e = .taken s) :
    e = .ok s := by
  cases e with
  | error => cases h
  | ok => cases h; rfl

theorem sound_read (h : s.found.Sound) (hs : s.read accepted word = .taken s') :
    s'.found.Sound := by
  unfold read at hs
  split at hs
  · cases hs
  · split at hs
    · cases hs
      exact h
    · exact sound_takeLong h (eq_ok_of_ofScan hs)
    · exact sound_takeShorts h (eq_ok_of_ofScan hs)
    · split at hs
      · cases hs
        exact h
      · cases hs

theorem sound_readAll {words : List Text} (h : s.found.Sound)
    (hs : readAll accepted s words = .ok s') : s'.found.Sound := by
  induction words generalizing s with
  | nil => exact sound_settle h hs
  | cons word rest ih =>
    rw [readAll] at hs
    split at hs
    · cases hs
    · next hread => exact ih (sound_read h hread) hs
    · split at hs
      · cases hs
      · split at hs
        · cases hs
        · next hsettle =>
          have hsound := sound_settle h hsettle
          refine ih ?_ hs
          exact hsound

end Scan

def Request.IsWritable : Request → Prop
  | .run script _ config _ baud => script ≠ [] ∧ config ≠ some [] ∧ baud < UInt32.size
  | .sign script _ => script ≠ []

structure Order.IsWritable (order : Order) : Prop where
  request : order.request.IsWritable
  verbose : order.verbose ≤ maxCount

theorem isWritable_of_requestOf {verb : Verb} {found : Found} {request : Request}
    (h : found.Sound) (hrequest : requestOf verb found = .ok request) : request.IsWritable := by
  have hscript : ∀ script, found.values.get? .script = some script → script ≠ [] :=
    fun script hget => (h.fits _ _ hget).path rfl
  have hrun : ∀ script link, script ≠ [] → (requestOf.build found script link).IsWritable := by
    intro script link hsome
    refine ⟨hsome, fun hconfig => (h.fits _ _ hconfig).path rfl rfl, ?_⟩
    cases hbaud : (found.values.get? .baud).bind number32? with
    | none => decide
    | some n =>
      obtain ⟨digits, -, hn⟩ := Option.bind_eq_some_iff.1 hbaud
      exact number32?_lt hn
  cases verb with
  | sign =>
    unfold requestOf at hrequest
    simp only at hrequest
    split at hrequest
    · cases hrequest
    · next hget =>
      cases hrequest
      exact hscript _ hget
  | run =>
    unfold requestOf at hrequest
    simp only at hrequest
    split at hrequest
    · cases hrequest
    · cases hrequest
    · cases hrequest
    · next hget =>
      cases hrequest
      exact hrun _ _ (hscript _ hget)
    · next hget =>
      cases hrequest
      exact hrun _ _ (hscript _ hget)

theorem isWritable_of_readFrom {s : Scan} (h : s.found.Sound) {words : List Text} {order : Order}
    (hread : readFrom s words = .ok order) : order.IsWritable := by
  induction words generalizing s with
  | nil =>
    rw [readFrom] at hread
    split at hread <;> cases hread
  | cons word rest ih =>
    rw [readFrom] at hread
    split at hread
    · cases hread
    · split at hread
      · split at hread
        · cases hread
        · next hall =>
          have hinner := Scan.sound_readAll Found.sound_empty hall
          split at hread
          · cases hread
          · cases hread
          · next hrequest hsettle =>
            cases hread
            refine ⟨isWritable_of_requestOf hinner hrequest, ?_⟩
            dsimp only
            split
            · exact (Scan.sound_settle h hsettle).count
            · exact hinner.count
      · split at hread
        · cases hread
        · next htaken => exact ih (Scan.sound_read h htaken) hread
        · split at hread <;> cases hread

theorem isWritable_of_read {words : List Text} {order : Order} (h : read words = .ok order) :
    order.IsWritable :=
  isWritable_of_readFrom Found.sound_empty h

def wordOf (option : Parameter × Text) : Text :=
  '-' :: '-' :: (option.1.long.getD []
    ++ if option.1.takesValue then '=' :: option.2 else [])

def Verb.word : Verb → Text
  | .run => "run".toList
  | .sign => "sign".toList

def linkOption : LinkChoice → Parameter × Text
  | .serial path => (.serial, path)
  | .tcp address => (.tcp, address)

namespace Request

def verb : Request → Verb
  | .run .. => .run
  | .sign .. => .sign

def script : Request → Text
  | .run script .. | .sign script _ => script

def options : Request → List (Parameter × Text)
  | .run _ routine config link baud =>
    [linkOption link, (.baud, Text.decimal baud), (.routine, routine)]
      ++ config.toList.map (Prod.mk .config)
  | .sign _ append => if append then [(.append, [])] else []

theorem IsWritable.script_ne_nil {request : Request} (h : request.IsWritable) :
    request.script ≠ [] := by
  cases request with
  | run => exact h.1
  | sign => exact h

end Request

namespace Order

def options (order : Order) : List (Parameter × Text) :=
  order.request.options ++ order.logLevel.toList.map (Prod.mk .logLevel)

/-- An order as a command line. The script stands behind two dashes, for it may begin with one. -/
def words (order : Order) : List Text :=
  order.request.verb.word :: (List.replicate order.verbose (wordOf (.verbose, []))
    ++ (order.options.map wordOf ++ [['-', '-'], order.request.script]))

end Order

/-- An option that a command takes, with a value that fits; a flag has none. -/
structure IsOption (verb : Verb) (option : Parameter × Text) : Prop where
  mem : option.1 ∈ verb.parameters
  value : option.1.takesValue = true ∨ option.1.shape = .flag ∧ option.2 = []
  fits : Fits option.1 option.2

theorem verbose_mem_parameters (verb : Verb) : Parameter.verbose ∈ verb.parameters := by
  cases verb <;> decide

theorem logLevel_mem_parameters (verb : Verb) : Parameter.logLevel ∈ verb.parameters := by
  cases verb <;> decide

section Written

variable {verb : Verb} {p : Parameter} {found : Found}

theorem exists_long (h : p ∈ verb.parameters) :
    ∃ c name, p.long = some (c :: name) ∧ '=' ∉ c :: name ∧
      (verb.parameters.find? fun q => q.long == some (c :: name)) = some p := by
  -- A finite check over the options of both commands.
  have hall : (verb.parameters.all fun p => p.long.any fun name =>
      !name.isEmpty && !name.contains '=' &&
        (verb.parameters.find? fun q => q.long == some name) == some p) = true := by
    cases verb <;> decide
  obtain ⟨name, hlong, hname⟩ := (Option.any_eq_true _ _).1 (List.all_eq_true.1 hall p h)
  simp only [Bool.and_eq_true, Bool.not_eq_true', List.isEmpty_eq_false_iff, beq_iff_eq] at hname
  obtain ⟨⟨hsome, hequals⟩, hfind⟩ := hname
  obtain ⟨c, name, rfl⟩ := List.exists_cons_of_ne_nil hsome
  exact ⟨c, name, hlong, fun hmem => by simp [hmem] at hequals, hfind⟩

namespace Scan

/-- A long option reaches the scan under its name, whatever its value is. -/
theorem read_wordOf (h : p ∈ verb.parameters) (value : Text) (s : Scan)
    (hfront : s.isTrailing = false) :
    s.read verb.parameters (wordOf (p, value))
      = .ofScan (if p.takesValue then s.attach p value else s.touch p) := by
  obtain ⟨c, name, hlong, hequals, hfind⟩ := exists_long h
  have hword : wordOf (p, value)
      = '-' :: '-' :: c :: (name ++ if p.takesValue then '=' :: value else []) := by
    rw [wordOf, hlong]
    rfl
  have hread : s.read verb.parameters (wordOf (p, value)) = .ofScan (s.takeLong verb.parameters
      (c :: name ++ if p.takesValue then '=' :: value else [])) := by
    rw [hword]
    unfold read
    rw [hfront]
    rfl
  rw [hread, takeLong]
  cases htakes : p.takesValue with
  | true =>
    have hcut : Text.splitOnce ['='] (c :: name ++ '=' :: value) = some (c :: name, value) :=
      Text.splitOnce_singleton hequals value
    simp only [if_true, hcut, hfind, htakes]
  | false =>
    have hcut : Text.splitOnce ['='] (c :: name) = none := by
      rw [Text.splitOnce_eq_none_iff, List.singleton_infix_iff]
      exact hequals
    simp only [Bool.false_eq_true, if_false, hcut, List.append_nil, hfind, htakes]

theorem read_option {option : Parameter × Text} (h : IsOption verb option)
    (hnew : found.values.contains option.1 = false) :
    read verb.parameters (wordOf option) { found }
      = .taken { found := { found with values := found.values.insert option.1 option.2 } } := by
  obtain ⟨p, value⟩ := option
  have hgive := Found.give_eq_ok_iff.2 ⟨hnew, h.fits, rfl⟩
  rw [read_wordOf h.mem value _ rfl]
  rcases h.value with htakes | ⟨hflag, hvalue⟩
  · simp only at htakes hgive
    simp only [htakes, if_true, attach, settle, hgive]
    rfl
  · simp only at hflag hvalue hgive
    rw [hvalue] at hgive
    simp only [Parameter.takesValue, hflag, Bool.false_eq_true, if_false, touch, settle, hvalue,
      hgive]
    rfl

theorem readAll_options {options : List (Parameter × Text)}
    (h : ∀ option ∈ options, IsOption verb option)
    (hnodup : (found.values.keys ++ options.map Prod.fst).Nodup) (rest : List Text) :
    readAll verb.parameters { found } (options.map wordOf ++ rest)
      = readAll verb.parameters
          { found := { found with values := ⟨found.values.entries ++ options⟩ } } rest := by
  -- The induction is over the options; the keys taken so far are those that none of them has.
  induction options generalizing found with
  | nil => rw [List.append_nil]; rfl
  | cons option options ih =>
    obtain ⟨hoption, hoptions⟩ := List.forall_mem_cons.1 h
    have hnew : option.1 ∉ found.values.keys := by
      intro hmem
      exact (List.nodup_append.1 hnodup).2.2 _ hmem _ (List.mem_cons_self ..) rfl
    have hread := read_option hoption (by simpa [Table.contains] using hnew)
    rw [Table.insert_of_not_mem hnew] at hread
    rw [List.map_cons, List.cons_append, readAll, hread]
    simp only
    rw [ih hoptions]
    · simp
    · simpa [Table.keys] using hnodup

theorem readAll_verbose {n : Nat} (h : found.count + n ≤ maxCount) (rest : List Text) :
    readAll verb.parameters { found } (List.replicate n (wordOf (.verbose, [])) ++ rest)
      = readAll verb.parameters { found := { found with count := found.count + n } } rest := by
  induction n generalizing found with
  | zero => rfl
  | succ n ih =>
    have hmin : min maxCount (found.count + 1) = found.count + 1 := Nat.min_eq_right (by omega)
    have hread : read verb.parameters (wordOf (.verbose, [])) { found }
        = .taken { found := { found with count := found.count + 1 } } := by
      rw [read_wordOf (verbose_mem_parameters verb) [] _ rfl, ← hmin]
      rfl
    rw [List.replicate_succ, List.cons_append, readAll, hread]
    simp only
    rw [ih (by simp only; omega), Nat.add_right_comm, Nat.add_assoc]

theorem readAll_script {script : Text} (hscript : script ≠ [])
    (hnew : Parameter.script ∉ found.values.keys) :
    readAll verb.parameters { found } [['-', '-'], script]
      = .ok ⟨{ found with values := ⟨found.values.entries ++ [(.script, script)]⟩ }, none, true,
          true⟩ := by
  have hgive : found.give .script script = .ok _ :=
    Found.give_eq_ok_iff.2 ⟨by simpa [Table.contains] using hnew,
      ⟨fun _ => hscript, fun h => (by cases h)⟩, rfl⟩
  rw [Table.insert_of_not_mem hnew] at hgive
  change settle ⟨found, some (.script, some script), true, true⟩ = _
  simp only [settle, hgive]

end Scan

end Written

theorem isOption_text {verb : Verb} {p : Parameter} (hmem : p ∈ verb.parameters)
    (hshape : p.shape = .text) (value : Text) : IsOption verb (p, value) := by
  have htakes : p.takesValue = true := by rw [Parameter.takesValue, hshape]
  refine ⟨hmem, Or.inl htakes, fun hpath => ?_, fun hnumber => ?_⟩
  · rw [hshape] at hpath
    cases hpath
  · rw [hshape] at hnumber
    cases hnumber

namespace Order

variable {order : Order}

theorem isOption_of_mem (h : order.IsWritable) :
    ∀ option ∈ order.options, IsOption order.request.verb option := by
  obtain ⟨request, verbose, logLevel⟩ := order
  have hlevel : ∀ option ∈ logLevel.toList.map (Prod.mk .logLevel),
      IsOption request.verb option := by
    intro option hmem
    obtain ⟨level, -, rfl⟩ := List.mem_map.1 hmem
    exact isOption_text (logLevel_mem_parameters _) rfl level
  have hflag : Parameter.append ∈ Verb.sign.parameters := by decide
  have hmem : ∀ p ∈ [Parameter.serial, .tcp, .baud, .routine, .config],
      p ∈ Verb.run.parameters := by
    decide
  simp only [List.forall_mem_cons] at hmem
  obtain ⟨hserial, htcp, hspeed, hroutine, hfile, -⟩ := hmem
  refine List.forall_mem_append.2 ⟨?_, hlevel⟩
  cases request with
  | sign script append =>
    cases append with
    | false => exact List.forall_mem_nil _
    | true =>
      exact List.forall_mem_singleton.2
        ⟨hflag, Or.inr ⟨rfl, rfl⟩, ⟨fun h => (by cases h), fun h => (by cases h)⟩⟩
  | run script routine config link baud =>
    obtain ⟨-, hconfig, hbaud⟩ := h.request
    have hlink : IsOption .run (linkOption link) := by
      cases link with
      | serial path => exact isOption_text hserial rfl path
      | tcp address => exact isOption_text htcp rfl address
    have hnumber : IsOption .run (.baud, Text.decimal baud) :=
      ⟨hspeed, Or.inl rfl, fun h => (by cases h), fun _ => by rw [number32?_decimal hbaud]; rfl⟩
    have hpath : ∀ option ∈ config.toList.map (Prod.mk .config), IsOption .run option := by
      intro option hmem
      obtain ⟨path, hsome, rfl⟩ := List.mem_map.1 hmem
      refine ⟨hfile, Or.inl rfl, fun _ hnil => ?_, fun h => (by cases h)⟩
      exact hconfig (by rw [← hnil]; exact Option.mem_toList.1 hsome)
    refine List.forall_mem_append.2 ⟨?_, hpath⟩
    simp only [List.forall_mem_cons]
    exact ⟨hlink, hnumber, isOption_text hroutine rfl routine, List.forall_mem_nil _⟩

theorem nodup_options (order : Order) :
    ((order.options ++ [(Parameter.script, order.request.script)]).map Prod.fst).Nodup := by
  obtain ⟨request, verbose, logLevel⟩ := order
  cases request with
  | sign script append =>
    cases append <;> cases logLevel <;> simp [options, Request.options]
  | run script routine config link baud =>
    cases link <;> cases config <;> cases logLevel <;>
      simp [options, Request.options, linkOption]

theorem requestOf_options (h : order.IsWritable) (count : Nat) :
    requestOf order.request.verb ⟨⟨order.options ++ [(.script, order.request.script)]⟩, count⟩
      = .ok order.request := by
  obtain ⟨request, verbose, logLevel⟩ := order
  cases request with
  | sign script append => cases append <;> cases logLevel <;> rfl
  | run script routine config link baud =>
    have hread : requestOf .run
        ⟨⟨Order.options ⟨.run script routine config link baud, verbose, logLevel⟩
          ++ [(.script, script)]⟩, count⟩
        = .ok (.run script routine config link
            ((number32? (Text.decimal baud)).getD defaultBaud)) := by
      cases link <;> cases config <;> cases logLevel <;> rfl
    rw [number32?_decimal h.request.2.2] at hread
    exact hread

theorem get?_logLevel (order : Order) : Table.get?
    ⟨order.options ++ [(.script, order.request.script)]⟩ .logLevel = order.logLevel := by
  obtain ⟨request, verbose, logLevel⟩ := order
  cases request with
  | sign script append => cases append <;> cases logLevel <;> rfl
  | run script routine config link baud =>
    cases link <;> cases config <;> cases logLevel <;> rfl

theorem readAll_words (h : order.IsWritable) :
    Scan.readAll order.request.verb.parameters {}
        (List.replicate order.verbose (wordOf (.verbose, []))
          ++ (order.options.map wordOf ++ [['-', '-'], order.request.script]))
      = .ok ⟨⟨⟨order.options ++ [(.script, order.request.script)]⟩, order.verbose⟩, none, true,
          true⟩ := by
  have hnodup := nodup_options order
  rw [List.map_append, List.nodup_append] at hnodup
  have hverbose : 0 + order.verbose ≤ maxCount := by
    rw [Nat.zero_add]
    exact h.verbose
  -- The words come in three parts: the flag that is counted, the options, and the script.
  refine (Scan.readAll_verbose hverbose _).trans ?_
  rw [Nat.zero_add]
  refine (@Scan.readAll_options _ { count := order.verbose } _ (isOption_of_mem h) hnodup.1
    _).trans ?_
  exact Scan.readAll_script h.request.script_ne_nil fun hmem =>
    hnodup.2.2 _ hmem _ (List.mem_singleton_self _) rfl

end Order

/-- Orders that are written down are read back. -/
theorem read_words {order : Order} (h : order.IsWritable) : read order.words = .ok order := by
  have hverb : Verb.ofWord? order.request.verb.word = some order.request.verb := by
    cases order.request.verb <;> decide
  have hhelp : (order.request.verb.word == helpWord) = false := by
    cases order.request.verb <;> decide
  rw [read, Order.words, readFrom]
  simp only [hhelp, hverb, Scan.isAwaiting, Bool.and_false, Bool.or_self, Bool.false_eq_true,
    if_false, Order.readAll_words h, Order.requestOf_options h, Scan.settle]
  have hcount : (if order.verbose = 0 then 0 else order.verbose) = order.verbose := by
    split <;> omega
  have hlevel : order.logLevel.orElse (fun _ => none) = order.logLevel := by
    cases order.logLevel <;> rfl
  rw [hcount, Order.get?_logLevel, Table.get?_empty, hlevel]

example : Order.words ⟨.sign "-a".toList true, 1, none⟩
    = ["sign", "--verbose", "--append", "--", "-a"].map String.toList := by
  decide

/-- Every command line has a normal form, which says the same. -/
theorem read_words_of_read {words : List Text} {order : Order} (h : read words = .ok order) :
    read order.words = .ok order :=
  read_words (isWritable_of_read h)

end CommandLine

namespace Endpoint

theorem portOf_append (host : Text) {port : Text} (h : ':' ∉ port) :
    portOf (host ++ ':' :: port) = some port := by
  have hstays : ∀ c ∈ port.reverse, (c != ':') = true := by
    intro c hc
    rw [bne_iff_ne]
    rintro rfl
    exact h (List.mem_reverse.1 hc)
  have hcolon : (host ++ ':' :: port).contains ':' = true := by simp
  rw [portOf, if_pos hcolon, List.reverse_append, List.reverse_cons, List.append_assoc,
    List.takeWhile_append_of_pos hstays]
  simp

/-- An address with a number behind its last colon has the fault of that number. -/
theorem fault_tcp {m : Type → Type} [Monad m] (portFault : Text → m LinkFault) (host : Text)
    (port : Nat) :
    fault portFault (.tcp (host ++ ':' :: Text.decimal port))
      = pure (.connect (host ++ ':' :: Text.decimal port)
          (if port < 65536 then .unsupported else .invalidPort)) := by
  have hport : ':' ∉ Text.decimal port := fun hmem =>
    absurd (Text.isDigit_of_mem_decimal hmem) (by decide)
  rw [fault, portOf_append host hport]
  simp only [decimalBelow_decimal]
  split <;> rfl

end Endpoint

section Fulfilled

variable {d : Directory}

theorem exists_fault (target : Endpoint) (d : Directory) :
    ∃ e, (target.fault Directory.access.portFault).run d = (e, d) := by
  cases target with
  | serial path baud =>
    simp only [Endpoint.fault, Directory.access, StateT.run, bind, StateT.bind]
    cases d.readBytes path with
    | error fault => exact ⟨_, rfl⟩
    | ok bytes => exact ⟨_, rfl⟩
  | tcp address =>
    simp only [Endpoint.fault]
    split
    · exact ⟨_, rfl⟩
    · exact ⟨_, rfl⟩

/-- A run that comes to no link leaves the files as they are. -/
theorem fulfil_run (d : Directory) (script routine : Text) (config : Option Text)
    (link : LinkChoice) (baud : Nat) :
    ∃ e, fulfil (.run script routine config link baud) d = (.error e, [], d) := by
  have hfailure : ∃ e, (linkFailure Directory.access config link baud).run d = (e, d) := by
    have hfault := exists_fault (Endpoint.ofChoice link baud) d
    cases config with
    | none => exact hfault
    | some path =>
      unfold linkFailure
      simp only [StateT.run, bind, StateT.bind, Functor.map, StateT.map, Directory.access]
      cases settingsIn path (d.readText path) with
      | error e => exact ⟨e, rfl⟩
      | ok settings => exact hfault
  obtain ⟨e, he⟩ := hfailure
  have hrun : (fulfilOn Directory.access (.run script routine config link baud)).run d
      = (((linkFailure Directory.access config link baud).run d).map Except.error id) := rfl
  refine ⟨e, ?_⟩
  rw [fulfil, hrun, he]
  rfl

theorem fulfil_sign (d : Directory) (script : Text) (append : Bool) :
    fulfil (.sign script append) d = match Seal.sign script append d with
      | (.ok marker, d) => (.ok true, marker ++ [Text.newline], d)
      | (.error e, d) => (.error e, [], d) := by
  have hrun : (fulfilOn Directory.access (.sign script append)).run d
      = (Seal.sign script append d).map (Except.map (· ++ [Text.newline])) id := rfl
  unfold fulfil
  rw [hrun]
  generalize Seal.sign script append d = outcome
  obtain ⟨e | marker, d⟩ := outcome
  · rfl
  · rfl

/-- A request that fails shows nothing and leaves the files as they were. -/
theorem fulfil_of_error {request : CommandLine.Request} {e : LaunchError}
    (h : (fulfil request d).1 = .error e) : (fulfil request d).2 = ([], d) := by
  cases request with
  | run script routine config link baud =>
    obtain ⟨e', hrun⟩ := fulfil_run d script routine config link baud
    rw [hrun]
  | sign script append =>
    rw [fulfil_sign] at h ⊢
    cases hsign : Seal.sign script append d with
    | mk marker d' =>
      cases marker with
      | ok marker =>
        rw [hsign] at h
        cases h
      | error fault => rw [Seal.sign_of_error hsign]

end Fulfilled

end BenchScript
