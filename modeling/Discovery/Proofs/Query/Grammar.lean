import Mathlib.Data.Set.Subsingleton
import Discovery.Query.Parser

/-!
# The grammar of query texts

A text is a query when it is spelled out of six parts, `[tag.]name[options][@datacenter][~near]`,
and each separator is absent from the parts in which it would be taken for the one that is looked
for (`Query.Separable`). The reader takes the parts off one after another; each of its steps is
characterized by what it takes off and by where the separator does not occur. Together these say
that the reader accepts the spellings and nothing else, so that a text has at most one
decomposition.
-/

namespace Discovery.Query

open Text (cutFirst cutLast pieces)

/-- The texts for a namespace and a partition. Two options may stand in either order. -/
def optionTexts (ns partition : String) : List String :=
  if ns = "" then
    if partition = "" then [""] else ["?partition=" ++ partition]
  else
    if partition = "" then ["?ns=" ++ ns]
    else ["?ns=" ++ ns ++ "&partition=" ++ partition, "?partition=" ++ partition ++ "&ns=" ++ ns]

/-- The texts for a query. -/
def spellings (q : Query) : List String :=
  (optionTexts q.ns q.partition).map fun options =>
    (if q.tag = "" then "" else q.tag ++ ".") ++ q.name ++ options ++
      (if q.datacenter = "" then "" else "@" ++ q.datacenter) ++
      (if q.near = "" then "" else "~" ++ q.near)

example : spellings ⟨"web", "v1", "dc2", "n1", "n", "p"⟩ =
    ["v1.web?ns=n&partition=p@dc2~n1", "v1.web?partition=p&ns=n@dc2~n1"] := by decide

/-- No separator stands where it would be taken for another one. A separator that a part may
contain is found again because the part that it leads is given. -/
structure Separable (q : Query) : Prop where
  name_ne : q.name ≠ ""
  tag_question : '?' ∉ q.tag.toList
  name_question : '?' ∉ q.name.toList
  tag_dot : '.' ∉ q.tag.toList
  name_dot : q.tag = "" → '.' ∉ q.name.toList
  ns_ampersand : '&' ∉ q.ns.toList
  partition_ampersand : '&' ∉ q.partition.toList
  datacenter_at : '@' ∉ q.datacenter.toList
  near_tilde : '~' ∉ q.near.toList
  tilde : q.near = "" →
    ∀ part ∈ [q.tag, q.name, q.ns, q.partition, q.datacenter], '~' ∉ part.toList
  atSign : q.datacenter = "" → ∀ part ∈ [q.tag, q.name, q.ns, q.partition], '@' ∉ part.toList

/-! ## One separator -/

theorem bind_eq_ok_iff {ε α β : Type} {x : Except ε α} {f : α → Except ε β} {b : β} :
    x >>= f = .ok b ↔ ∃ a, x = .ok a ∧ f a = .ok b := by
  cases x <;> simp [bind, Except.bind]

/-- An operand with its separator, or nothing. -/
def suffix (sep : Char) (operand : List Char) : List Char :=
  if operand = [] then [] else sep :: operand

/-- A tag with the point behind it, or nothing. -/
def tagged (tag : List Char) : List Char := if tag = [] then [] else tag ++ ['.']

variable {input : String} {sep : Char} {s rest operand tag name raw : List Char}

theorem takeSuffix_eq_ok_iff : takeSuffix input sep s = .ok (rest, operand) ↔
    s = rest ++ suffix sep operand ∧ sep ∉ operand ∧ (operand = [] → sep ∉ rest) := by
  constructor
  · intro h
    unfold takeSuffix at h
    split at h
    · next hc =>
      cases h
      exact ⟨by simp [suffix], List.not_mem_nil, fun _ => Text.cutLast_eq_none_iff.1 hc⟩
    · cases h
    · next hne hc =>
      cases h
      obtain ⟨rfl, hs⟩ := Text.cutLast_eq_some_iff.1 hc
      have h0 : operand ≠ [] := hne
      exact ⟨by simp [suffix, h0], hs, fun e => absurd e h0⟩
  · rintro ⟨rfl, ho, hr⟩
    cases operand with
    | nil => simp [takeSuffix, suffix, Text.cutLast_eq_none_iff.2 (hr rfl)]
    | cons c cs => simp [takeSuffix, suffix, Text.cutLast_eq_some_iff.2 ⟨rfl, ho⟩]

theorem takeTag_eq_ok_iff : takeTag input s = .ok (tag, name) ↔
    s = tagged tag ++ name ∧ '.' ∉ tag ∧ (tag = [] → '.' ∉ name) := by
  constructor
  · intro h
    unfold takeTag at h
    split at h
    · next hc =>
      cases h
      exact ⟨by simp [tagged], List.not_mem_nil, fun _ => Text.cutFirst_eq_none_iff.1 hc⟩
    · cases h
    · next hne hc =>
      cases h
      obtain ⟨rfl, hs⟩ := Text.cutFirst_eq_some_iff.1 hc
      have h0 : tag ≠ [] := hne
      exact ⟨by simp [tagged, h0], hs, fun e => absurd e h0⟩
  · rintro ⟨rfl, ht, hn⟩
    cases tag with
    | nil => simp [takeTag, tagged, Text.cutFirst_eq_none_iff.2 (hn rfl)]
    | cons c cs =>
      have hc : cutFirst '.' (c :: (cs ++ '.' :: name)) = some (c :: cs, name) :=
        Text.cutFirst_eq_some_iff.2 ⟨rfl, ht⟩
      simp [takeTag, tagged, hc]

/-! ## Options -/

/-- The pair that gives a namespace. -/
def nsPair (value : List Char) : List Char := ['n', 's', '='] ++ value

/-- The pair that gives a partition. -/
def partitionPair (value : List Char) : List Char :=
  ['p', 'a', 'r', 't', 'i', 't', 'i', 'o', 'n', '='] ++ value

/-- A pair that fills a slot of a scope which is still empty. -/
inductive Fills : Scope → List Char → Scope → Prop
  | ns (hv : v ≠ []) (h : scope.ns = none) : Fills scope (nsPair v) { scope with ns := some v }
  | partition (hv : v ≠ []) (h : scope.partition = none) :
    Fills scope (partitionPair v) { scope with partition := some v }

/-- A key and a value that is not empty are what stands around the first `=`. -/
theorem getD_cutFirst_eq_iff {pair key value : List Char} (hv : value ≠ []) :
    (cutFirst '=' pair).getD (pair, []) = (key, value) ↔
      pair = key ++ '=' :: value ∧ '=' ∉ key := by
  rw [← Text.cutFirst_eq_some_iff]
  cases cutFirst '=' pair with
  | none => simpa using fun _ => hv.symm
  | some p => simp

theorem readPair_eq_ok_iff {scope scope' : Scope} {pair : List Char} :
    readPair input scope pair = .ok scope' ↔ Fills scope pair scope' := by
  constructor
  · intro h
    unfold readPair at h
    split at h
    · cases h
    generalize hc : (cutFirst '=' pair).getD (pair, []) = p at h
    obtain ⟨key, value⟩ := p
    by_cases hv : value = []
    · simp only [hv, ↓reduceIte] at h
      split at h <;> [cases h; (split at h <;> cases h)]
    obtain ⟨rfl, -⟩ := (getD_cutFirst_eq_iff hv).1 hc
    simp only [hv, ↓reduceIte] at h
    split at h
    · next hk =>
      split at h <;> cases h
      subst hk
      exact .ns hv (by simpa using ‹¬scope.ns.isSome›)
    · split at h
      · next hk =>
        split at h <;> cases h
        subst hk
        exact .partition hv (by simpa using ‹¬scope.partition.isSome›)
      · cases h
  · intro h
    cases h with
    | @ns v _ hv h =>
      have hc : (cutFirst '=' (nsPair v)).getD (nsPair v, []) = (['n', 's'], v) :=
        (getD_cutFirst_eq_iff hv).2 ⟨rfl, by decide⟩
      simp only [nsPair, List.cons_append, List.nil_append] at hc
      simp [readPair, nsPair, hc, hv, h]
    | @partition v _ hv h =>
      have hc : (cutFirst '=' (partitionPair v)).getD (partitionPair v, []) =
          (['p', 'a', 'r', 't', 'i', 't', 'i', 'o', 'n'], v) :=
        (getD_cutFirst_eq_iff hv).2 ⟨rfl, by decide⟩
      simp only [partitionPair, List.cons_append, List.nil_append] at hc
      simp [readPair, partitionPair, hc, hv, h]

theorem readPairs_cons_eq_ok_iff {scope scope' : Scope} {pair : List Char}
    {pairs : List (List Char)} : readPairs input scope (pair :: pairs) = .ok scope' ↔
      ∃ mid, Fills scope pair mid ∧ readPairs input mid pairs = .ok scope' := by
  simp only [readPairs, bind_eq_ok_iff, readPair_eq_ok_iff]

/-- A scope that holds a namespace and a partition where they are not empty. -/
def Scope.of (ns partition : String) : Scope where
  ns := (given? ns).map String.toList
  partition := (given? partition).map String.toList

theorem Scope.getD_of_ns (ns partition : String) :
    String.ofList ((Scope.of ns partition).ns.getD []) = ns := by
  by_cases h : ns = "" <;> simp [Scope.of, given?, h]

theorem Scope.getD_of_partition (ns partition : String) :
    String.ofList ((Scope.of ns partition).partition.getD []) = partition := by
  by_cases h : partition = "" <;> simp [Scope.of, given?, h]

/-- Two slots take at most two pairs, in either order. -/
theorem readPairs_eq_ok_iff {scope : Scope} {pairs : List (List Char)} (h0 : pairs ≠ []) :
    readPairs input {} pairs = .ok scope ↔
      (∃ v, v ≠ [] ∧ pairs = [nsPair v] ∧ scope = { ns := some v }) ∨
      (∃ w, w ≠ [] ∧ pairs = [partitionPair w] ∧ scope = { partition := some w }) ∨
      ∃ v w, v ≠ [] ∧ w ≠ [] ∧ scope = { ns := some v, partition := some w } ∧
        (pairs = [nsPair v, partitionPair w] ∨ pairs = [partitionPair w, nsPair v]) := by
  constructor
  · intro h
    obtain ⟨p, ps, rfl⟩ := List.exists_cons_of_ne_nil h0
    obtain ⟨mid, hp, h⟩ := readPairs_cons_eq_ok_iff.1 h
    cases ps with
    | nil =>
      cases h
      cases hp with
      | ns hv => exact .inl ⟨_, hv, rfl, rfl⟩
      | partition hv => exact .inr (.inl ⟨_, hv, rfl, rfl⟩)
    | cons q qs =>
      obtain ⟨full, hq, h⟩ := readPairs_cons_eq_ok_iff.1 h
      refine .inr (.inr ?_)
      -- the second pair fills the slot that the first one left
      have hqs : ∀ r rs, qs = r :: rs → full.ns.isSome → full.partition.isSome → False := by
        rintro r rs rfl h1 h2
        obtain ⟨_, hr, -⟩ := readPairs_cons_eq_ok_iff.1 h
        cases hr with
        | ns _ hn => simp [hn] at h1
        | partition _ hn => simp [hn] at h2
      cases hp with
      | ns hv =>
        cases hq with
        | ns _ hn => cases hn
        | partition hw =>
          cases qs with
          | nil => cases h; exact ⟨_, _, hv, hw, rfl, .inl rfl⟩
          | cons r rs => exact (hqs r rs rfl rfl rfl).elim
      | partition hv =>
        cases hq with
        | partition _ hn => cases hn
        | ns hw =>
          cases qs with
          | nil => cases h; exact ⟨_, _, hw, hv, rfl, .inr rfl⟩
          | cons r rs => exact (hqs r rs rfl rfl rfl).elim
  · rintro (⟨v, hv, rfl, rfl⟩ | ⟨w, hw, rfl, rfl⟩ | ⟨v, w, hv, hw, rfl, rfl | rfl⟩)
    · exact readPairs_cons_eq_ok_iff.2 ⟨_, .ns hv rfl, rfl⟩
    · exact readPairs_cons_eq_ok_iff.2 ⟨_, .partition hw rfl, rfl⟩
    · exact readPairs_cons_eq_ok_iff.2
        ⟨_, .ns hv rfl, readPairs_cons_eq_ok_iff.2 ⟨_, .partition hw rfl, rfl⟩⟩
    · exact readPairs_cons_eq_ok_iff.2
        ⟨_, .partition hw rfl, readPairs_cons_eq_ok_iff.2 ⟨_, .ns hv rfl, rfl⟩⟩

theorem ampersand_not_mem_nsPair {v : List Char} : '&' ∉ nsPair v ↔ '&' ∉ v := by
  simp [nsPair]

theorem ampersand_not_mem_partitionPair {v : List Char} : '&' ∉ partitionPair v ↔ '&' ∉ v := by
  simp [partitionPair]

theorem readOptions_eq_ok_iff {scope : Scope} : readOptions input raw = .ok scope ↔
    (∃ v, v ≠ [] ∧ '&' ∉ v ∧ raw = nsPair v ∧ scope = { ns := some v }) ∨
    (∃ w, w ≠ [] ∧ '&' ∉ w ∧ raw = partitionPair w ∧ scope = { partition := some w }) ∨
    ∃ v w, v ≠ [] ∧ w ≠ [] ∧ '&' ∉ v ∧ '&' ∉ w ∧ scope = { ns := some v, partition := some w } ∧
      (raw = nsPair v ++ '&' :: partitionPair w ∨ raw = partitionPair w ++ '&' :: nsPair v) := by
  have hraw : readOptions input raw = .ok scope ↔
      readPairs input {} (pieces '&' raw) = .ok scope := by
    cases raw with
    | nil => simp [readOptions, pieces, readPairs, readPair, bind, Except.bind]
    | cons => simp [readOptions]
  have hone : ∀ p : List Char, pieces '&' raw = [p] ↔ raw = p ∧ '&' ∉ p := fun p => by
    simp [Text.pieces_eq_iff]
  have htwo : ∀ p q : List Char, pieces '&' raw = [p, q] ↔
      raw = p ++ '&' :: q ∧ '&' ∉ p ∧ '&' ∉ q := fun p q => by
    simp [Text.pieces_eq_iff]
  rw [hraw, readPairs_eq_ok_iff (Text.pieces_ne_nil _ _)]
  simp only [hone, htwo, ampersand_not_mem_nsPair, ampersand_not_mem_partitionPair]
  grind

/-- The texts of options are read as the scope that they give. -/
theorem readOptions_of_mem_optionTexts (input : String) {ns partition options : String}
    (hns : '&' ∉ ns.toList) (hpartition : '&' ∉ partition.toList)
    (h : options ∈ optionTexts ns partition) :
    options = "" ∧ Scope.of ns partition = {} ∨
      ∃ raw, options.toList = '?' :: raw ∧ readOptions input raw = .ok (Scope.of ns partition) := by
  unfold optionTexts at h
  split at h <;> split at h <;> simp only [List.mem_cons, List.not_mem_nil, or_false] at h
  · next h1 h2 => exact .inl ⟨h, by simp [Scope.of, given?, h1, h2]⟩
  · next h1 h2 =>
    refine .inr ⟨partitionPair partition.toList, by simp [h, partitionPair], ?_⟩
    exact readOptions_eq_ok_iff.2 <| .inr <| .inl
      ⟨_, by simpa using h2, hpartition, rfl, by simp [Scope.of, given?, h1, h2]⟩
  · next h1 h2 =>
    refine .inr ⟨nsPair ns.toList, by simp [h, nsPair], ?_⟩
    exact readOptions_eq_ok_iff.2 <| .inl
      ⟨_, by simpa using h1, hns, rfl, by simp [Scope.of, given?, h1, h2]⟩
  · next h1 h2 =>
    have hscope : Scope.of ns partition =
        { ns := some ns.toList, partition := some partition.toList } := by
      simp [Scope.of, given?, h1, h2]
    rcases h with h | h
    · refine .inr ⟨nsPair ns.toList ++ '&' :: partitionPair partition.toList,
        by simp [h, nsPair, partitionPair], ?_⟩
      exact readOptions_eq_ok_iff.2 <| .inr <| .inr
        ⟨_, _, by simpa using h1, by simpa using h2, hns, hpartition, hscope, .inl rfl⟩
    · refine .inr ⟨partitionPair partition.toList ++ '&' :: nsPair ns.toList,
        by simp [h, nsPair, partitionPair], ?_⟩
      exact readOptions_eq_ok_iff.2 <| .inr <| .inr
        ⟨_, _, by simpa using h1, by simpa using h2, hns, hpartition, hscope, .inr rfl⟩

/-- What is read as options is a text of the scope that it gives. -/
theorem exists_optionTexts_of_readOptions {scope : Scope} (h : readOptions input raw = .ok scope) :
    ∃ ns partition, scope = Scope.of ns partition ∧ '&' ∉ ns.toList ∧ '&' ∉ partition.toList ∧
      String.ofList ('?' :: raw) ∈ optionTexts ns partition := by
  rcases readOptions_eq_ok_iff.1 h with ⟨v, hv, hm, rfl, rfl⟩ | ⟨w, hw, hm, rfl, rfl⟩ |
    ⟨v, w, hv, hw, hmv, hmw, rfl, hraw⟩
  · refine ⟨String.ofList v, "", by simp [Scope.of, given?, hv], by simpa using hm, by simp, ?_⟩
    simp [optionTexts, hv, ← String.toList_inj, nsPair]
  · refine ⟨"", String.ofList w, by simp [Scope.of, given?, hw], by simp, by simpa using hm, ?_⟩
    simp [optionTexts, hw, ← String.toList_inj, partitionPair]
  · refine ⟨String.ofList v, String.ofList w, by simp [Scope.of, given?, hv, hw],
      by simpa using hmv, by simpa using hmw, ?_⟩
    rcases hraw with rfl | rfl <;>
      simp [optionTexts, hv, hw, ← String.toList_inj, nsPair, partitionPair]

theorem takeOptions_eq_ok_iff {scope : Scope} : takeOptions input s = .ok (rest, scope) ↔
    '?' ∉ rest ∧ ∃ ns partition, scope = Scope.of ns partition ∧ '&' ∉ ns.toList ∧
      '&' ∉ partition.toList ∧ ∃ options ∈ optionTexts ns partition, s = rest ++ options.toList := by
  constructor
  · intro h
    unfold takeOptions at h
    split at h
    · next hc =>
      cases h
      exact ⟨Text.cutFirst_eq_none_iff.1 hc, "", "", rfl, by simp, by simp, "", by decide, by simp⟩
    · next rest' raw hc =>
      obtain ⟨rfl, hm⟩ := Text.cutFirst_eq_some_iff.1 hc
      obtain ⟨scope', hr, hs⟩ := bind_eq_ok_iff.1 h
      cases hs
      obtain ⟨ns, partition, hs, hn, hp, ho⟩ := exists_optionTexts_of_readOptions hr
      exact ⟨hm, ns, partition, hs, hn, hp, _, ho, by simp⟩
  · rintro ⟨hm, ns, partition, rfl, hn, hp, options, ho, rfl⟩
    have h := readOptions_of_mem_optionTexts input hn hp ho
    rcases h with ⟨rfl, hs⟩ | ⟨raw, hraw, hr⟩
    · simp [takeOptions, Text.cutFirst_eq_none_iff.2 hm, hs]
    · rw [hraw]
      simp [takeOptions, Text.cutFirst_eq_some_iff.2 ⟨rfl, hm⟩, hr, bind, Except.bind, pure,
        Except.pure]

theorem Scope.of_inj {ns ns' partition partition' : String} :
    Scope.of ns partition = Scope.of ns' partition' ↔ ns = ns' ∧ partition = partition' := by
  refine ⟨fun h => ⟨?_, ?_⟩, fun ⟨h, h'⟩ => by rw [h, h']⟩
  · rw [← Scope.getD_of_ns ns partition, h, Scope.getD_of_ns]
  · rw [← Scope.getD_of_partition ns partition, h, Scope.getD_of_partition]

theorem takeOptions_of_eq_ok_iff {ns partition : String} :
    takeOptions input s = .ok (rest, Scope.of ns partition) ↔
      '?' ∉ rest ∧ '&' ∉ ns.toList ∧ '&' ∉ partition.toList ∧
        ∃ options ∈ optionTexts ns partition, s = rest ++ options.toList := by
  rw [takeOptions_eq_ok_iff]
  constructor
  · rintro ⟨hm, ns', partition', hs, h⟩
    obtain ⟨rfl, rfl⟩ := Scope.of_inj.1 hs
    exact ⟨hm, h⟩
  · exact fun ⟨hm, h⟩ => ⟨hm, ns, partition, rfl, h⟩

/-! ## The whole text -/

variable {text : String} {q : Query}

/-- A text is read when its parts can be taken off one after another. -/
theorem parse_eq_ok_iff_take : parse text = .ok q ↔ ∃ s₁ s₂ s₃,
    takeSuffix text '~' text.toList = .ok (s₁, q.near.toList) ∧
    takeSuffix text '@' s₁ = .ok (s₂, q.datacenter.toList) ∧
    takeOptions text s₂ = .ok (s₃, Scope.of q.ns q.partition) ∧
    takeTag text s₃ = .ok (q.tag.toList, q.name.toList) ∧ q.name ≠ "" := by
  constructor
  · intro h
    unfold parse at h
    split at h
    · cases h
    obtain ⟨⟨s₁, near⟩, h1, h⟩ := bind_eq_ok_iff.1 h
    obtain ⟨⟨s₂, datacenter⟩, h2, h⟩ := bind_eq_ok_iff.1 h
    obtain ⟨⟨s₃, scope⟩, h3, h⟩ := bind_eq_ok_iff.1 h
    obtain ⟨⟨tag, name⟩, h4, h⟩ := bind_eq_ok_iff.1 h
    dsimp only at h
    split at h
    · cases h
    cases h
    obtain ⟨-, ns, partition, rfl, -⟩ := takeOptions_eq_ok_iff.1 h3
    refine ⟨s₁, s₂, s₃, by simpa using h1, by simpa using h2, ?_, by simpa using h4, ?_⟩
    · simpa only [Scope.getD_of_ns, Scope.getD_of_partition] using h3
    · simpa using ‹name ≠ []›
  · rintro ⟨s₁, s₂, s₃, h1, h2, h3, h4, h0⟩
    have hname : q.name.toList ≠ [] := by simpa using h0
    have htext : text ≠ "" := by
      rintro rfl
      obtain ⟨e, -⟩ := takeSuffix_eq_ok_iff.1 h1
      obtain ⟨rfl, -⟩ := List.append_eq_nil_iff.1 e.symm
      obtain ⟨e, -⟩ := takeSuffix_eq_ok_iff.1 h2
      obtain ⟨rfl, -⟩ := List.append_eq_nil_iff.1 e.symm
      obtain ⟨-, ns, partition, -, -, -, options, -, e⟩ := takeOptions_eq_ok_iff.1 h3
      obtain ⟨rfl, -⟩ := List.append_eq_nil_iff.1 e.symm
      obtain ⟨e, -⟩ := takeTag_eq_ok_iff.1 h4
      exact hname (List.append_eq_nil_iff.1 e.symm).2
    simp [parse, htext, h1, h2, h3, h4, h0, bind, Except.bind, Scope.getD_of_ns,
      Scope.getD_of_partition]

theorem toList_suffixed {sep : String} {c : Char} (hsep : sep.toList = [c]) (part : String) :
    (if part = "" then "" else sep ++ part).toList = suffix c part.toList := by
  by_cases h : part = "" <;> simp [suffix, h, hsep]

theorem toList_tagged (tag : String) :
    (if tag = "" then "" else tag ++ ".").toList = tagged tag.toList := by
  by_cases h : tag = "" <;> simp [tagged, h]

theorem mem_spellings_iff : text ∈ q.spellings ↔
    ∃ options ∈ optionTexts q.ns q.partition, text.toList =
      tagged q.tag.toList ++ q.name.toList ++ options.toList ++ suffix '@' q.datacenter.toList ++
        suffix '~' q.near.toList := by
  simp only [spellings, List.mem_map]
  refine exists_congr fun options => and_congr_right fun _ => ?_
  rw [eq_comm, ← String.toList_inj]
  simp only [String.toList_append, toList_tagged, toList_suffixed (show "@".toList = ['@'] from rfl),
    toList_suffixed (show "~".toList = ['~'] from rfl)]

theorem mem_suffix_of_ne {c : Char} (h : c ≠ sep) : c ∈ suffix sep operand ↔ c ∈ operand := by
  by_cases h0 : operand = [] <;> simp [suffix, h0, h]

theorem mem_tagged_of_ne {c : Char} (h : c ≠ '.') : c ∈ tagged tag ↔ c ∈ tag := by
  by_cases h0 : tag = [] <;> simp [tagged, h0, h]

/-- A character that is no part of an option's key or of its separators comes from its value. -/
theorem mem_options_iff {c : Char} {ns partition options : String}
    (hc : c ∉ "?ns=&partition=".toList) (h : options ∈ optionTexts ns partition) :
    c ∈ options.toList ↔ c ∈ ns.toList ∨ c ∈ partition.toList := by
  simp only [String.reduceToList, List.mem_cons, List.not_mem_nil, or_false, not_or] at hc
  unfold optionTexts at h
  split at h <;> split at h <;> simp only [List.mem_cons, List.not_mem_nil, or_false] at h
  · simp_all
  · simp_all
  · simp_all
  · rcases h with rfl | rfl <;> simp [hc, or_comm]

/-- A character that is no part of the form stands before the datacenter only as part of a
field. -/
theorem not_mem_body_iff {c : Char} {options : String} (hc : c ∉ ".?ns=&partition=".toList)
    (ho : options ∈ optionTexts q.ns q.partition) :
    c ∉ tagged q.tag.toList ++ q.name.toList ++ options.toList ↔
      ∀ part ∈ [q.tag, q.name, q.ns, q.partition], c ∉ part.toList := by
  obtain ⟨hdot, hc⟩ : c ≠ '.' ∧ c ∉ "?ns=&partition=".toList := by simpa using hc
  simp [mem_tagged_of_ne hdot, mem_options_iff hc ho]

theorem separable_of_parse (h : parse text = .ok q) : q.Separable := by
  obtain ⟨s₁, s₂, s₃, h1, h2, h3, h4, h0⟩ := parse_eq_ok_iff_take.1 h
  obtain ⟨-, hnear, htilde⟩ := takeSuffix_eq_ok_iff.1 h1
  obtain ⟨rfl, hdatacenter, hat⟩ := takeSuffix_eq_ok_iff.1 h2
  obtain ⟨hquestion, hns, hpartition, options, ho, rfl⟩ := takeOptions_of_eq_ok_iff.1 h3
  obtain ⟨rfl, htag, hname⟩ := takeTag_eq_ok_iff.1 h4
  rw [List.mem_append, not_or, mem_tagged_of_ne (by decide)] at hquestion
  rw [List.mem_append, not_or, not_mem_body_iff (by decide) ho,
    mem_suffix_of_ne (by decide)] at htilde
  rw [not_mem_body_iff (by decide) ho] at hat
  exact {
    name_ne := h0
    tag_question := hquestion.1
    name_question := hquestion.2
    tag_dot := htag
    name_dot := fun e => hname (by simpa using e)
    ns_ampersand := hns
    partition_ampersand := hpartition
    datacenter_at := hdatacenter
    near_tilde := hnear
    tilde := fun e => List.forall_mem_append.2
      ⟨(htilde (by simpa using e)).1, by simpa using (htilde (by simpa using e)).2⟩
    atSign := fun e => hat (by simpa using e) }

theorem mem_spellings_of_parse (h : parse text = .ok q) : text ∈ q.spellings := by
  obtain ⟨s₁, s₂, s₃, h1, h2, h3, h4, h0⟩ := parse_eq_ok_iff_take.1 h
  obtain ⟨htext, -⟩ := takeSuffix_eq_ok_iff.1 h1
  obtain ⟨rfl, -⟩ := takeSuffix_eq_ok_iff.1 h2
  obtain ⟨-, -, -, options, ho, rfl⟩ := takeOptions_of_eq_ok_iff.1 h3
  obtain ⟨rfl, -⟩ := takeTag_eq_ok_iff.1 h4
  exact mem_spellings_iff.2 ⟨options, ho, htext⟩

theorem parse_of_mem_spellings (hq : q.Separable) (h : text ∈ q.spellings) :
    parse text = .ok q := by
  obtain ⟨options, ho, htext⟩ := mem_spellings_iff.1 h
  refine parse_eq_ok_iff_take.2 ⟨_, _, _, takeSuffix_eq_ok_iff.2 ⟨htext, hq.near_tilde, fun e => ?_⟩,
    takeSuffix_eq_ok_iff.2 ⟨rfl, hq.datacenter_at, fun e => ?_⟩,
    takeOptions_of_eq_ok_iff.2 ⟨?_, hq.ns_ampersand, hq.partition_ampersand, options, ho, rfl⟩,
    takeTag_eq_ok_iff.2 ⟨rfl, hq.tag_dot, fun e => hq.name_dot (by simpa using e)⟩, hq.name_ne⟩
  · have htilde : ∀ part ∈ [q.tag, q.name, q.ns, q.partition] ++ [q.datacenter],
        '~' ∉ part.toList := hq.tilde (by simpa using e)
    obtain ⟨hbody, hdatacenter⟩ := List.forall_mem_append.1 htilde
    rw [List.mem_append, not_or, not_mem_body_iff (by decide) ho, mem_suffix_of_ne (by decide)]
    exact ⟨hbody, by simpa using hdatacenter⟩
  · exact (not_mem_body_iff (by decide) ho).2 (hq.atSign (by simpa using e))
  · rw [List.mem_append, not_or, mem_tagged_of_ne (by decide)]
    exact ⟨hq.tag_question, hq.name_question⟩

/-- **Reading accepts exactly the spellings of separable queries**, and a text is a spelling of at
most one of them. -/
theorem parse_eq_ok_iff_mem_spellings (text : String) :
    (∀ q : Query, parse text = .ok q ↔ q.Separable ∧ text ∈ q.spellings) ∧
      {q : Query | q.Separable ∧ text ∈ q.spellings}.Subsingleton := by
  have hiff : ∀ q : Query, parse text = .ok q ↔ q.Separable ∧ text ∈ q.spellings := fun q =>
    ⟨fun h => ⟨separable_of_parse h, mem_spellings_of_parse h⟩,
      fun h => parse_of_mem_spellings h.1 h.2⟩
  refine ⟨hiff, fun q hq q' hq' => ?_⟩
  have h := ((hiff q).2 hq).symm.trans ((hiff q').2 hq')
  exact Except.ok.inj h

end Discovery.Query
