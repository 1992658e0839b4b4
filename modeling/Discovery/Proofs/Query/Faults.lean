import Discovery.Proofs.Query.Grammar

/-!
# Faults of query texts

A text that is no query may have several faults, and one of them is reported. `Refuses` is the order
in which they count: the operand after the last `~`, then the one after the last `@` of what stands
before it, then the options behind the first `?`, and at last tag and name. Of the options the first
faulty pair counts (`FirstFault`), whatever pairs follow it. The reader reports a fault exactly if
it is the one that counts (`parse_eq_error_iff_refuses`).
-/

namespace Discovery.Query

open Text (cutFirst cutLast pieces)

/-- The text that a fault was found in. -/
def Error.input? : Error → Option String
  | .empty => none
  | .missingOperand input _ | .unsupportedOption input _ | .duplicateOption input _
  | .nameRequired input => some input

/-! ## Faults of options -/

/-- What may be wrong with the options of a text. -/
inductive OptionFault where
  | missing (separator : Char)
  | unsupported (key : String)
  | duplicate (key : String)

/-- The report of a fault that the options of a text have. -/
def OptionFault.error (input : String) : OptionFault → Error
  | .missing separator => .missingOperand input separator
  | .unsupported key => .unsupportedOption input key
  | .duplicate key => .duplicateOption input key

/-- The key of a pair: what stands before its first `=`, or all of it. -/
def keyOf (pair : List Char) : List Char := pair.takeWhile (· ≠ '=')

/-- The value of a pair, which is empty when there is no `=`. -/
def valueOf (pair : List Char) : List Char := (pair.dropWhile (· ≠ '=')).tail

def nsKey : List Char := ['n', 's']

def partitionKey : List Char := ['p', 'a', 'r', 't', 'i', 't', 'i', 'o', 'n']

/-- A fault of a pair that stands behind others. -/
inductive PairFault (earlier : List (List Char)) : List Char → OptionFault → Prop
  | empty : PairFault earlier [] (.missing '&')
  | unsupported (hpair : pair ≠ []) (hkey : keyOf pair ∉ [nsKey, partitionKey]) :
    PairFault earlier pair (.unsupported (String.ofList (keyOf pair)))
  | missing (hkey : keyOf pair ∈ [nsKey, partitionKey]) (hvalue : valueOf pair = []) :
    PairFault earlier pair (.missing '=')
  | duplicate (hkey : keyOf pair ∈ [nsKey, partitionKey]) (hvalue : valueOf pair ≠ [])
    (hearlier : keyOf pair ∈ earlier.map keyOf) :
    PairFault earlier pair (.duplicate (String.ofList (keyOf pair)))

/-- The fault of the first faulty one of some pairs that stand behind others. -/
inductive FirstFault : List (List Char) → List (List Char) → OptionFault → Prop
  | here (h : PairFault earlier pair fault) : FirstFault earlier (pair :: later) fault
  | later (hfine : ∀ f, ¬PairFault earlier pair f)
    (h : FirstFault (earlier ++ [pair]) later fault) : FirstFault earlier (pair :: later) fault

/-- The fault of a text of options. -/
inductive OptionsFault : List Char → OptionFault → Prop
  | missing : OptionsFault [] (.missing '?')
  | pair (hne : options ≠ []) (h : FirstFault [] (options.splitOn '&') fault) :
    OptionsFault options fault

/-! ## Faults of texts -/

/-- What stands before the last `sep`: all of a text that has none. -/
inductive BeforeLast (sep : Char) : List Char → List Char → Prop
  | absent (h : sep ∉ s) : BeforeLast sep s s
  | cut (h : sep ∉ operand) : BeforeLast sep (rest ++ sep :: operand) rest

/-- What is left of a text when near and datacenter are taken off, which are not both faulty. -/
inductive Stripped (text : String) (s : List Char) : Prop
  | intro (hempty : text ≠ "") (hnear : text.toList.getLast? ≠ some '~')
    (hr : BeforeLast '~' text.toList r) (hdatacenter : r.getLast? ≠ some '@')
    (hs : BeforeLast '@' r s)

/-- What stands before the options, which have no fault. -/
inductive Head : List Char → List Char → Prop
  | bare (h : '?' ∉ s) : Head s s
  | optioned (h : '?' ∉ rest) (hfine : ∀ f, ¬OptionsFault options f) :
    Head (rest ++ '?' :: options) rest

/-- The fault of a text that counts. Each kind counts only where those before it are absent. -/
inductive Refuses (text : String) : Error → Prop
  | empty (h : text = "") : Refuses text .empty
  | near (h : text.toList.getLast? = some '~') : Refuses text (.missingOperand text '~')
  | datacenter (hnear : text.toList.getLast? ≠ some '~') (hr : BeforeLast '~' text.toList r)
    (h : r.getLast? = some '@') : Refuses text (.missingOperand text '@')
  | options (hs : Stripped text (rest ++ '?' :: options)) (hrest : '?' ∉ rest)
    (h : OptionsFault options fault) : Refuses text (fault.error text)
  | tag (hs : Stripped text s) (hhead : Head s rest) (h : rest.head? = some '.') :
    Refuses text (.missingOperand text '.')
  | name (hs : Stripped text s) (hhead : Head s rest) (htag : rest.head? ≠ some '.')
    (h : rest = [] ∨ ∃ tag, '.' ∉ tag ∧ rest = tag ++ ['.']) : Refuses text (.nameRequired text)

variable {input text : String} {e : Error} {sep c : Char} {scope scope' : Scope} {q : Query}
variable {s r h options more rest operand pair tag : List Char}
variable {earlier pairs others : List (List Char)} {fault : OptionFault}

theorem keyOf_cons_of_ne (hc : c ≠ '=') (cs : List Char) : keyOf (c :: cs) = c :: keyOf cs :=
  List.takeWhile_cons_of_pos (decide_eq_true hc)

theorem valueOf_cons_of_ne (hc : c ≠ '=') (cs : List Char) : valueOf (c :: cs) = valueOf cs :=
  congrArg List.tail (List.dropWhile_cons_of_pos (decide_eq_true hc))

theorem getD_cutFirst_eq (pair : List Char) :
    (cutFirst '=' pair).getD (pair, []) = (keyOf pair, valueOf pair) := by
  induction pair with
  | nil => rfl
  | cons c cs ih =>
    by_cases hc : c = '='
    · subst hc
      rfl
    · rw [keyOf_cons_of_ne hc, valueOf_cons_of_ne hc, cutFirst, if_neg hc]
      cases hcut : cutFirst '=' cs with
      | none =>
        rw [hcut] at ih
        obtain ⟨hkey, hvalue⟩ := Prod.mk.inj ih
        rw [← hkey, ← hvalue]
        rfl
      | some p =>
        rw [hcut] at ih
        exact congrArg (fun p => (c :: p.1, p.2)) ih

/-- What a scope holds tells which keys have been read. -/
structure Scope.Holds (scope : Scope) (earlier : List (List Char)) : Prop where
  ns : scope.ns.isSome ↔ nsKey ∈ earlier.map keyOf
  partition : scope.partition.isSome ↔ partitionKey ∈ earlier.map keyOf

theorem Scope.Holds.empty : Scope.Holds {} [] := ⟨by simp, by simp⟩

theorem keyOf_nsPair (v : List Char) : keyOf (nsPair v) = nsKey := rfl

theorem keyOf_partitionPair (v : List Char) : keyOf (partitionPair v) = partitionKey := rfl

theorem Scope.Holds.fill (hscope : scope.Holds earlier) (hfills : Fills scope pair scope') :
    scope'.Holds (earlier ++ [pair]) := by
  have hne : nsKey ≠ partitionKey := by decide
  cases hfills with
  | ns =>
    refine ⟨?_, ?_⟩
    · simp [keyOf_nsPair]
    · simp [keyOf_nsPair, hscope.partition, hne.symm]
  | partition =>
    refine ⟨?_, ?_⟩
    · simp [keyOf_partitionPair, hscope.ns, hne]
    · simp [keyOf_partitionPair]

theorem readPair_eq (input : String) (scope : Scope) (hpair : pair ≠ []) :
    readPair input scope pair =
      if keyOf pair = nsKey then
        if valueOf pair = [] then .error (.missingOperand input '=')
        else if scope.ns.isSome then .error (.duplicateOption input (String.ofList (keyOf pair)))
        else .ok { scope with ns := some (valueOf pair) }
      else if keyOf pair = partitionKey then
        if valueOf pair = [] then .error (.missingOperand input '=')
        else if scope.partition.isSome then
          .error (.duplicateOption input (String.ofList (keyOf pair)))
        else .ok { scope with partition := some (valueOf pair) }
      else .error (.unsupportedOption input (String.ofList (keyOf pair))) := by
  rw [readPair, if_neg hpair, getD_cutFirst_eq]
  rfl

theorem exists_pairFault_of_readPair (hscope : scope.Holds earlier)
    (hread : readPair input scope pair = .error e) :
    ∃ f, PairFault earlier pair f ∧ e = f.error input := by
  by_cases hpair : pair = []
  · subst hpair
    cases hread
    exact ⟨_, .empty, rfl⟩
  rw [readPair_eq input scope hpair] at hread
  -- the two keys that are known are read alike, each with a slot of its own
  have hknown {slot : Option (List Char)} {filled : Scope}
      (hkey : keyOf pair ∈ [nsKey, partitionKey])
      (hslot : slot.isSome ↔ keyOf pair ∈ earlier.map keyOf)
      (hread : (if valueOf pair = [] then .error (.missingOperand input '=')
        else if slot.isSome then .error (.duplicateOption input (String.ofList (keyOf pair)))
        else .ok filled) = Except.error e) :
      ∃ f, PairFault earlier pair f ∧ e = f.error input := by
    split at hread
    · next hvalue =>
      cases hread
      exact ⟨_, .missing hkey hvalue, rfl⟩
    · next hvalue =>
      split at hread
      · next hgiven =>
        cases hread
        exact ⟨_, .duplicate hkey hvalue (hslot.1 hgiven), rfl⟩
      · cases hread
  split at hread
  · next hkey => exact hknown (by simp [hkey]) (hkey ▸ hscope.ns) hread
  · next hns =>
    split at hread
    · next hkey => exact hknown (by simp [hkey]) (hkey ▸ hscope.partition) hread
    · next hpartition =>
      cases hread
      exact ⟨_, .unsupported hpair (by simp [hns, hpartition]), rfl⟩

theorem PairFault.readPair (hfault : PairFault earlier pair fault) (hscope : scope.Holds earlier) :
    readPair input scope pair = .error (fault.error input) := by
  have hne : partitionKey ≠ nsKey := by decide
  cases hfault with
  | empty => rfl
  | unsupported hpair hkey =>
    obtain ⟨hns, hpartition⟩ : keyOf pair ≠ nsKey ∧ keyOf pair ≠ partitionKey := by
      simpa using hkey
    rw [readPair_eq input scope hpair, if_neg hns, if_neg hpartition]
    rfl
  | missing hkey hvalue =>
    have hpair : pair ≠ [] := by
      rintro rfl
      exact absurd hkey (by decide)
    rw [readPair_eq input scope hpair, if_pos hvalue, if_pos hvalue]
    obtain hkey | hkey : keyOf pair = nsKey ∨ keyOf pair = partitionKey := by simpa using hkey
    · rw [if_pos hkey]
      rfl
    · rw [if_neg (hkey ▸ hne), if_pos hkey]
      rfl
  | duplicate hkey hvalue hearlier =>
    have hpair : pair ≠ [] := by
      rintro rfl
      exact absurd hkey (by decide)
    rw [readPair_eq input scope hpair, if_neg hvalue, if_neg hvalue]
    obtain hkey | hkey : keyOf pair = nsKey ∨ keyOf pair = partitionKey := by simpa using hkey
    · rw [if_pos hkey, if_pos (hscope.ns.2 (hkey ▸ hearlier))]
      rfl
    · rw [if_neg (hkey ▸ hne), if_pos hkey, if_pos (hscope.partition.2 (hkey ▸ hearlier))]
      rfl

theorem readPairs_cons_of_error (hread : readPair input scope pair = .error e) :
    readPairs input scope (pair :: pairs) = .error e := by
  rw [readPairs, hread]
  rfl

theorem readPairs_cons_of_ok (hread : readPair input scope pair = .ok scope') :
    readPairs input scope (pair :: pairs) = readPairs input scope' pairs := by
  rw [readPairs, hread]
  rfl

theorem FirstFault.readPairs (hfault : FirstFault earlier pairs fault)
    (hscope : scope.Holds earlier) :
    readPairs input scope pairs = .error (fault.error input) := by
  induction hfault generalizing scope with
  | here h => exact readPairs_cons_of_error (h.readPair hscope)
  | @later earlier pair fault rest hfine h ih =>
    cases hread : readPair input scope pair with
    | error e =>
      obtain ⟨f, hf, -⟩ := exists_pairFault_of_readPair hscope hread
      exact absurd hf (hfine f)
    | ok scope' =>
      rw [readPairs_cons_of_ok hread]
      exact ih (hscope.fill (readPair_eq_ok_iff.1 hread))

theorem exists_firstFault_of_readPairs (hscope : scope.Holds earlier)
    (hread : readPairs input scope pairs = .error e) :
    ∃ f, FirstFault earlier pairs f ∧ e = f.error input := by
  induction pairs generalizing scope earlier with
  | nil => cases hread
  | cons pair pairs ih =>
    cases hpair : readPair input scope pair with
    | error e' =>
      rw [readPairs_cons_of_error hpair] at hread
      cases hread
      obtain ⟨f, hf, he⟩ := exists_pairFault_of_readPair hscope hpair
      exact ⟨f, .here hf, he⟩
    | ok scope' =>
      rw [readPairs_cons_of_ok hpair] at hread
      obtain ⟨f, hf, he⟩ := ih (hscope.fill (readPair_eq_ok_iff.1 hpair)) hread
      refine ⟨f, .later (fun g hg => ?_) hf, he⟩
      rw [hg.readPair hscope] at hpair
      cases hpair

/-- Pairs that follow the first faulty one do not matter. -/
theorem FirstFault.append (h : FirstFault earlier pairs fault) (others : List (List Char)) :
    FirstFault earlier (pairs ++ others) fault := by
  induction h with
  | here h => exact .here h
  | later hfine _ ih => exact .later hfine ih

theorem pieces_append (s t : List Char) :
    pieces sep (s ++ sep :: t) = pieces sep s ++ pieces sep t := by
  induction s with
  | nil => simp [pieces]
  | cons c cs ih =>
    obtain ⟨p, ps, hp⟩ := List.exists_cons_of_ne_nil (Text.pieces_ne_nil sep cs)
    by_cases hc : c = sep
    · simp [pieces, hc, ih]
    · simp [pieces, hc, ih, hp]

theorem OptionsFault.append (h : OptionsFault options fault) (hne : options ≠ [])
    (more : List Char) : OptionsFault (options ++ '&' :: more) fault := by
  cases h with
  | missing => exact absurd rfl hne
  | pair _ h =>
    refine .pair (by simp) ?_
    rw [← Text.pieces_eq_splitOn] at h ⊢
    rw [pieces_append]
    exact h.append _

theorem readOptions_eq_error_iff : readOptions input options = .error e ↔
    ∃ f, OptionsFault options f ∧ e = f.error input := by
  unfold readOptions
  rw [Text.pieces_eq_splitOn]
  constructor
  · intro h
    split at h
    · next hnil =>
      subst hnil
      cases h
      exact ⟨_, .missing, rfl⟩
    · next hne =>
      obtain ⟨f, hf, he⟩ := exists_firstFault_of_readPairs .empty h
      exact ⟨f, .pair hne hf, he⟩
  · rintro ⟨f, hf, rfl⟩
    cases hf with
    | missing => rfl
    | pair hne hf =>
      rw [if_neg hne]
      exact hf.readPairs .empty

/-! ## One separator -/

theorem bind_eq_error_iff {ε α β : Type} {x : Except ε α} {f : α → Except ε β} {e : ε} :
    x >>= f = .error e ↔ x = .error e ∨ ∃ a, x = .ok a ∧ f a = .error e := by
  cases x <;> simp [bind, Except.bind]

theorem getLast?_append_cons_ne (h : sep ∉ operand) (hne : operand ≠ []) (rest : List Char) :
    (rest ++ sep :: operand).getLast? ≠ some sep := by
  have hlast : (rest ++ sep :: operand).getLast? = operand.getLast? := by
    rw [List.getLast?_append, List.getLast?_cons, List.getLast?_eq_some_getLast hne]
    rfl
  rw [hlast]
  exact fun hmem => h (List.mem_of_getLast? hmem)

theorem takeSuffix_eq_error_iff : takeSuffix input sep s = .error e ↔
    s.getLast? = some sep ∧ e = .missingOperand input sep := by
  unfold takeSuffix
  split
  · next hcut =>
    have hs := Text.cutLast_eq_none_iff.1 hcut
    exact iff_of_false (by simp) fun h => hs (List.mem_of_getLast? h.1)
  · next rest hcut =>
    obtain ⟨rfl, -⟩ := Text.cutLast_eq_some_iff.1 hcut
    simp [eq_comm]
  · next rest operand hne hcut =>
    obtain ⟨rfl, hoperand⟩ := Text.cutLast_eq_some_iff.1 hcut
    exact iff_of_false (by simp) fun h => getLast?_append_cons_ne hoperand hne rest h.1

theorem beforeLast_iff : BeforeLast sep s r ∧ s.getLast? ≠ some sep ↔
    ∃ operand, takeSuffix input sep s = .ok (r, operand) := by
  simp only [takeSuffix_eq_ok_iff]
  constructor
  · rintro ⟨hr, hlast⟩
    cases hr with
    | absent h => exact ⟨[], by simp [suffix], by simp, fun _ => h⟩
    | @cut operand _ h =>
      have hne : operand ≠ [] := by
        rintro rfl
        simp at hlast
      exact ⟨operand, by rw [suffix, if_neg hne], h, fun hnil => absurd hnil hne⟩
  · rintro ⟨operand, rfl, hoperand, hr⟩
    by_cases hne : operand = []
    · subst hne
      rw [suffix, if_pos rfl, List.append_nil]
      exact ⟨.absent (hr rfl), fun h => hr rfl (List.mem_of_getLast? h)⟩
    · rw [suffix, if_neg hne]
      exact ⟨.cut hoperand, getLast?_append_cons_ne hoperand hne r⟩

theorem takeOptions_append (hrest : '?' ∉ rest) (options : List Char) :
    takeOptions input (rest ++ '?' :: options) =
      (readOptions input options).map fun scope => (rest, scope) := by
  simp only [takeOptions, Text.cutFirst_eq_some_iff.2 ⟨rfl, hrest⟩]
  cases readOptions input options <;> rfl

theorem takeOptions_of_notMem (hs : '?' ∉ s) : takeOptions input s = .ok (s, {}) := by
  rw [takeOptions, Text.cutFirst_eq_none_iff.2 hs]

/-- A text has no `?`, or has a first one. -/
theorem exists_cut (s : List Char) :
    '?' ∉ s ∨ ∃ rest options, '?' ∉ rest ∧ s = rest ++ '?' :: options := by
  cases hcut : cutFirst '?' s with
  | none => exact .inl (Text.cutFirst_eq_none_iff.1 hcut)
  | some p =>
    obtain ⟨hs, hrest⟩ := Text.cutFirst_eq_some_iff.1 hcut
    exact .inr ⟨p.1, p.2, hrest, hs⟩

theorem takeOptions_eq_error_iff : takeOptions input s = .error e ↔
    ∃ rest options f, s = rest ++ '?' :: options ∧ '?' ∉ rest ∧ OptionsFault options f ∧
      e = f.error input := by
  constructor
  · intro hread
    obtain hs | ⟨rest, options, hrest, rfl⟩ := exists_cut s
    · rw [takeOptions_of_notMem hs] at hread
      cases hread
    · rw [takeOptions_append hrest] at hread
      cases hoptions : readOptions input options with
      | error e' =>
        rw [hoptions] at hread
        cases hread
        obtain ⟨f, hf, he⟩ := readOptions_eq_error_iff.1 hoptions
        exact ⟨rest, options, f, rfl, hrest, hf, he⟩
      | ok scope =>
        rw [hoptions] at hread
        cases hread
  · rintro ⟨rest, options, f, rfl, hrest, hf, he⟩
    rw [takeOptions_append hrest, readOptions_eq_error_iff.2 ⟨f, hf, he⟩]
    rfl

theorem head_iff (input : String) :
    Head s rest ↔ ∃ scope, takeOptions input s = .ok (rest, scope) := by
  constructor
  · intro h
    cases h with
    | bare h => exact ⟨{}, takeOptions_of_notMem h⟩
    | @optioned _ options hrest hfine =>
      rw [takeOptions_append hrest]
      cases hoptions : readOptions input options with
      | error e =>
        obtain ⟨f, hf, -⟩ := readOptions_eq_error_iff.1 hoptions
        exact absurd hf (hfine f)
      | ok scope => exact ⟨scope, rfl⟩
  · rintro ⟨scope, hread⟩
    obtain hs | ⟨rest', options, hrest, rfl⟩ := exists_cut s
    · rw [takeOptions_of_notMem hs] at hread
      cases hread
      exact .bare hs
    · rw [takeOptions_append hrest] at hread
      cases hoptions : readOptions input options with
      | error e =>
        rw [hoptions] at hread
        cases hread
      | ok scope =>
        rw [hoptions] at hread
        cases hread
        refine .optioned hrest fun f hf => ?_
        rw [readOptions_eq_error_iff.2 ⟨f, hf, rfl⟩] at hoptions
        cases hoptions

theorem takeTag_eq_error_iff : takeTag input s = .error e ↔
    s.head? = some '.' ∧ e = .missingOperand input '.' := by
  unfold takeTag
  split
  · next hcut =>
    have hs := Text.cutFirst_eq_none_iff.1 hcut
    exact iff_of_false (by simp) fun h => hs (List.mem_of_mem_head? h.1)
  · next rest hcut =>
    obtain ⟨rfl, -⟩ := Text.cutFirst_eq_some_iff.1 hcut
    simp [eq_comm]
  · next tag name hne hcut =>
    obtain ⟨rfl, htag⟩ := Text.cutFirst_eq_some_iff.1 hcut
    obtain ⟨c, cs, rfl⟩ := List.exists_cons_of_ne_nil hne
    refine iff_of_false (by simp) ?_
    rintro ⟨hhead, -⟩
    cases hhead
    exact htag List.mem_cons_self

theorem exists_takeTag_nil_iff : (∃ tag, takeTag input s = .ok (tag, [])) ↔
    s.head? ≠ some '.' ∧ (s = [] ∨ ∃ tag, '.' ∉ tag ∧ s = tag ++ ['.']) := by
  simp only [takeTag_eq_ok_iff, List.append_nil]
  constructor
  · rintro ⟨tag, rfl, htag, -⟩
    cases tag with
    | nil => exact ⟨by simp [tagged], .inl rfl⟩
    | cons c cs =>
      refine ⟨?_, .inr ⟨_, htag, rfl⟩⟩
      rintro ⟨⟩
      exact htag List.mem_cons_self
  · rintro ⟨hhead, rfl | ⟨tag, htag, rfl⟩⟩
    · exact ⟨[], rfl, by simp⟩
    · have hne : tag ≠ [] := by
        rintro rfl
        exact hhead rfl
      exact ⟨tag, by rw [tagged, if_neg hne], htag, fun hnil => absurd hnil hne⟩

/-! ## The whole text -/

theorem stripped_iff : Stripped text s ↔ text ≠ "" ∧ ∃ r near datacenter,
    takeSuffix text '~' text.toList = .ok (r, near) ∧
      takeSuffix text '@' r = .ok (s, datacenter) := by
  constructor
  · rintro ⟨hempty, hnear, hr, hdatacenter, hs⟩
    obtain ⟨near, hnear⟩ := beforeLast_iff.1 ⟨hr, hnear⟩
    obtain ⟨datacenter, hdatacenter⟩ := beforeLast_iff.1 ⟨hs, hdatacenter⟩
    exact ⟨hempty, _, near, datacenter, hnear, hdatacenter⟩
  · rintro ⟨hempty, r, near, datacenter, hnear, hdatacenter⟩
    obtain ⟨hr, hnear⟩ := beforeLast_iff.2 ⟨near, hnear⟩
    obtain ⟨hs, hdatacenter⟩ := beforeLast_iff.2 ⟨datacenter, hdatacenter⟩
    exact ⟨hempty, hnear, hr, hdatacenter, hs⟩

/-- Where a text is refused: at the first part that cannot be taken off. -/
theorem parse_eq_error_iff_take (hempty : text ≠ "") : parse text = .error e ↔
    takeSuffix text '~' text.toList = .error e ∨
      ∃ r near, takeSuffix text '~' text.toList = .ok (r, near) ∧
        (takeSuffix text '@' r = .error e ∨
          ∃ s datacenter, takeSuffix text '@' r = .ok (s, datacenter) ∧
            (takeOptions text s = .error e ∨
              ∃ rest scope, takeOptions text s = .ok (rest, scope) ∧
                (takeTag text rest = .error e ∨
                  ∃ tag, takeTag text rest = .ok (tag, []) ∧ e = .nameRequired text))) := by
  have hname (rest : List Char) (q : List Char → List Char → Query) :
      (∃ tag name, takeTag text rest = .ok (tag, name) ∧
        (if name = [] then .error (.nameRequired text) else .ok (q tag name)) = Except.error e) ↔
          ∃ tag, takeTag text rest = .ok (tag, []) ∧ e = .nameRequired text := by
    constructor
    · rintro ⟨tag, name, htag, h⟩
      split at h
      · next hname =>
        cases h
        exact ⟨tag, hname ▸ htag, rfl⟩
      · cases h
    · rintro ⟨tag, htag, rfl⟩
      exact ⟨tag, [], htag, rfl⟩
  rw [parse, if_neg hempty]
  simp only [bind_eq_error_iff, Prod.exists, hname]

theorem refuses_of_parse (h : parse text = .error e) : Refuses text e := by
  by_cases hempty : text = ""
  · rw [parse, if_pos hempty] at h
    cases h
    exact .empty hempty
  obtain h | ⟨r, near, hr, h⟩ := (parse_eq_error_iff_take hempty).1 h
  · obtain ⟨hlast, rfl⟩ := takeSuffix_eq_error_iff.1 h
    exact .near hlast
  obtain h | ⟨s, datacenter, hs, h⟩ := h
  · obtain ⟨hlast, rfl⟩ := takeSuffix_eq_error_iff.1 h
    obtain ⟨hr, hnear⟩ := beforeLast_iff.2 ⟨near, hr⟩
    exact .datacenter hnear hr hlast
  have hstripped : Stripped text s := stripped_iff.2 ⟨hempty, r, near, datacenter, hr, hs⟩
  obtain h | ⟨rest, scope, hrest, h⟩ := h
  · obtain ⟨rest, options, f, rfl, hrest, hf, rfl⟩ := takeOptions_eq_error_iff.1 h
    exact .options hstripped hrest hf
  have hhead : Head s rest := (head_iff text).2 ⟨scope, hrest⟩
  obtain h | ⟨tag, htag, rfl⟩ := h
  · obtain ⟨hdot, rfl⟩ := takeTag_eq_error_iff.1 h
    exact .tag hstripped hhead hdot
  · obtain ⟨hdot, hrest⟩ := exists_takeTag_nil_iff.1 ⟨tag, htag⟩
    exact .name hstripped hhead hdot hrest

/-- A text that is stripped is refused for what is left of it. -/
theorem parse_eq_error_of_stripped (hs : Stripped text s)
    (h : takeOptions text s = .error e ∨
      ∃ rest scope, takeOptions text s = .ok (rest, scope) ∧
        (takeTag text rest = .error e ∨
          ∃ tag, takeTag text rest = .ok (tag, []) ∧ e = .nameRequired text)) :
    parse text = .error e := by
  obtain ⟨hempty, r, near, datacenter, hr, hs⟩ := stripped_iff.1 hs
  exact (parse_eq_error_iff_take hempty).2 (.inr ⟨r, near, hr, .inr ⟨s, datacenter, hs, h⟩⟩)

theorem Refuses.parse (h : Refuses text e) : parse text = .error e := by
  cases h with
  | empty h => rw [Query.parse, if_pos h]
  | near h =>
    have hempty : text ≠ "" := by
      rintro rfl
      cases h
    exact (parse_eq_error_iff_take hempty).2 (.inl (takeSuffix_eq_error_iff.2 ⟨h, rfl⟩))
  | datacenter hnear hr h =>
    obtain ⟨near, hnear⟩ := beforeLast_iff.1 ⟨hr, hnear⟩
    have hempty : text ≠ "" := by
      rintro rfl
      obtain ⟨hnil, -⟩ := takeSuffix_eq_ok_iff.1 hnear
      rw [(List.append_eq_nil_iff.1 hnil.symm).1] at h
      cases h
    exact (parse_eq_error_iff_take hempty).2
      (.inr ⟨_, near, hnear, .inl (takeSuffix_eq_error_iff.2 ⟨h, rfl⟩)⟩)
  | options hs hrest h =>
    exact parse_eq_error_of_stripped hs
      (.inl (takeOptions_eq_error_iff.2 ⟨_, _, _, rfl, hrest, h, rfl⟩))
  | tag hs hhead h =>
    obtain ⟨scope, hrest⟩ := (head_iff text).1 hhead
    exact parse_eq_error_of_stripped hs
      (.inr ⟨_, scope, hrest, .inl (takeTag_eq_error_iff.2 ⟨h, rfl⟩)⟩)
  | name hs hhead htag h =>
    obtain ⟨scope, hrest⟩ := (head_iff text).1 hhead
    obtain ⟨tag, htag⟩ := exists_takeTag_nil_iff.2 ⟨htag, h⟩
    exact parse_eq_error_of_stripped hs (.inr ⟨_, scope, hrest, .inr ⟨tag, htag, rfl⟩⟩)

theorem Refuses.input?_eq (h : Refuses text e) (hne : e ≠ .empty) : e.input? = some text := by
  cases h with
  | empty => exact absurd rfl hne
  | options _ _ h => cases ‹OptionFault› <;> rfl
  | near | datacenter | tag | name => rfl

/-- **Which fault is reported.** A text is refused with an error exactly if it has the fault of that
error and none that counts before it, and is a query if it has none. The error names the whole text.
When further pairs follow the first faulty option, the fault stays the same. -/
theorem parse_eq_error_iff_refuses (text : String) :
    (∀ e, parse text = .error e ↔ Refuses text e) ∧
    ((∃ q, parse text = .ok q) ↔ ∀ e, ¬Refuses text e) ∧
    (∀ e, parse text = .error e → e ≠ .empty → e.input? = some text) ∧
    ∀ rest options fault, Stripped text (rest ++ '?' :: options) → '?' ∉ rest → options ≠ [] →
      OptionsFault options fault → ∀ text' rest' more,
        Stripped text' (rest' ++ '?' :: (options ++ '&' :: more)) → '?' ∉ rest' →
          parse text = .error (fault.error text) ∧ parse text' = .error (fault.error text') := by
  have hiff : ∀ e, parse text = .error e ↔ Refuses text e := fun e =>
    ⟨refuses_of_parse, Refuses.parse⟩
  refine ⟨hiff, ?_, fun e h hne => ((hiff e).1 h).input?_eq hne, ?_⟩
  · simp only [← hiff]
    cases parse text <;> simp
  · intro rest options fault hs hrest hne hfault text' rest' more hs' hrest'
    exact ⟨(Refuses.options hs hrest hfault).parse,
      (Refuses.options hs' hrest' (hfault.append hne more)).parse⟩

/-- The pair that follows has no value and there is no name, but the first pair counts. -/
theorem parse_eq_error_iff_refuses_unsupported :
    parse "a?x=1" = .error (.unsupportedOption "a?x=1" "x") ∧
      parse ".?x=1&ns=" = .error (.unsupportedOption ".?x=1&ns=" "x") := by
  have hstripped {text : String} (hempty : text ≠ "") (hnear : '~' ∉ text.toList)
      (hdatacenter : '@' ∉ text.toList) : Stripped text text.toList :=
    .intro hempty (fun h => hnear (List.mem_of_getLast? h)) (.absent hnear)
      (fun h => hdatacenter (List.mem_of_getLast? h)) (.absent hdatacenter)
  have hfault : OptionsFault ['x', '=', '1'] (.unsupported "x") :=
    .pair (by decide) (.here (.unsupported (by decide) (by decide)))
  exact (parse_eq_error_iff_refuses "a?x=1").2.2.2 ['a'] ['x', '=', '1'] (.unsupported "x")
    (hstripped (by decide) (by decide) (by decide)) (by decide) (by decide) hfault
    ".?x=1&ns=" ['.'] ['n', 's', '='] (hstripped (by decide) (by decide) (by decide)) (by decide)

end Discovery.Query
