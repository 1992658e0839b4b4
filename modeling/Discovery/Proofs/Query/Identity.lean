import Mathlib.Data.List.Pairwise
import Mathlib.Data.List.Perm.Basic
import Std.Data.HashSet.Lemmas
import Discovery.Proofs.Catalog.Tokens
import Discovery.Proofs.Query.Grammar
import Discovery.Query.Live

/-!
# When two texts are one query

Reading a text loses nothing but the order of two options: queries that were read are equal exactly
if their texts are the same up to that order (`parse_eq_iff_respelled`). Equality and hash look at
the parts alone, so that a set of queries has one for each such class of texts; what was cancelled
makes no difference to it, and cancelling a query cancels no other
(`one_query_for_each_spelling`).
-/

namespace Discovery.Query

open Text (cutFirst)

variable {text t u input : String} {q q' : Query} {front first second datacenter near : List Char}

/-! ## Texts with two options -/

/-- A text taken apart at two options: they stand behind the first `?` and end at the last `@` that
comes before the last `~`. -/
structure Parted (text : String) (front first second datacenter near : List Char) : Prop where
  text_eq : text.toList =
    front ++ '?' :: (first ++ '&' :: second) ++ suffix '@' datacenter ++ suffix '~' near
  front_question : '?' ∉ front
  first_ampersand : '&' ∉ first
  second_ampersand : '&' ∉ second
  datacenter_at : '@' ∉ datacenter
  near_tilde : '~' ∉ near
  atSign : datacenter = [] → '@' ∉ front ++ '?' :: (first ++ '&' :: second)
  tilde : near = [] → '~' ∉ front ++ '?' :: (first ++ '&' :: second) ++ suffix '@' datacenter

/-- Texts that are the same, or differ in the order of their two options only. -/
def Respelled (t u : String) : Prop := t = u ∨ ∃ front first second datacenter near,
  Parted t front first second datacenter near ∧ Parted u front second first datacenter near

/-! ## Reading texts with two options -/

/-- Two texts are told apart by the first separator between them. -/
theorem append_ampersand_inj {a b c d : List Char} (ha : '&' ∉ a) (hc : '&' ∉ c)
    (h : a ++ '&' :: b = c ++ '&' :: d) : a = c ∧ b = d := by
  have hleft : cutFirst '&' (a ++ '&' :: b) = some (a, b) :=
    Text.cutFirst_eq_some_iff.2 ⟨rfl, ha⟩
  rw [h, Text.cutFirst_eq_some_iff.2 ⟨rfl, hc⟩] at hleft
  cases hleft
  exact ⟨rfl, rfl⟩

/-- Two options give the same scope in either order. -/
theorem readOptions_swap {input' : String} {scope : Scope} (hfirst : '&' ∉ first)
    (hsecond : '&' ∉ second) (h : readOptions input (first ++ '&' :: second) = .ok scope) :
    readOptions input' (second ++ '&' :: first) = .ok scope := by
  have hmem : '&' ∈ first ++ '&' :: second := by simp
  rcases readOptions_eq_ok_iff.1 h with ⟨v, -, hv, hraw, -⟩ | ⟨w, -, hw, hraw, -⟩ |
    ⟨v, w, hv₀, hw₀, hv, hw, hscope, hraw⟩
  · exact absurd (hraw ▸ hmem) (ampersand_not_mem_nsPair.2 hv)
  · exact absurd (hraw ▸ hmem) (ampersand_not_mem_partitionPair.2 hw)
  · refine readOptions_eq_ok_iff.2 (.inr (.inr ⟨v, w, hv₀, hw₀, hv, hw, hscope, ?_⟩))
    rcases hraw with hraw | hraw
    · obtain ⟨rfl, rfl⟩ := append_ampersand_inj hfirst (ampersand_not_mem_nsPair.2 hv) hraw
      exact .inr rfl
    · obtain ⟨rfl, rfl⟩ := append_ampersand_inj hfirst (ampersand_not_mem_partitionPair.2 hw) hraw
      exact .inl rfl

theorem takeOptions_append_eq_ok_iff {rest raw : List Char} {scope : Scope}
    (hfront : '?' ∉ front) : takeOptions input (front ++ '?' :: raw) = .ok (rest, scope) ↔
      front = rest ∧ readOptions input raw = .ok scope := by
  have hcut : cutFirst '?' (front ++ '?' :: raw) = some (front, raw) :=
    Text.cutFirst_eq_some_iff.2 ⟨rfl, hfront⟩
  unfold takeOptions
  simp only [hcut, bind_eq_ok_iff, pure, Except.pure, Except.ok.injEq, Prod.mk.injEq]
  constructor
  · rintro ⟨scope', hoptions, hrest, rfl⟩
    exact ⟨hrest, hoptions⟩
  · rintro ⟨hrest, hoptions⟩
    exact ⟨scope, hoptions, hrest, rfl⟩

/-- A text with two options is read when the options and what stands before them are. -/
theorem Parted.parse_eq_ok_iff (h : Parted text front first second datacenter near) :
    parse text = .ok q ↔ q.datacenter.toList = datacenter ∧ q.near.toList = near ∧
      readOptions text (first ++ '&' :: second) = .ok (Scope.of q.ns q.partition) ∧
      takeTag text front = .ok (q.tag.toList, q.name.toList) ∧ q.name ≠ "" := by
  have hnear : takeSuffix text '~' text.toList = .ok (front ++ '?' :: (first ++ '&' :: second) ++
      suffix '@' datacenter, near) :=
    takeSuffix_eq_ok_iff.2 ⟨h.text_eq, h.near_tilde, h.tilde⟩
  have hdatacenter : takeSuffix text '@' (front ++ '?' :: (first ++ '&' :: second) ++
      suffix '@' datacenter) = .ok (front ++ '?' :: (first ++ '&' :: second), datacenter) :=
    takeSuffix_eq_ok_iff.2 ⟨rfl, h.datacenter_at, h.atSign⟩
  rw [parse_eq_ok_iff_take]
  constructor
  · rintro ⟨s₁, s₂, s₃, h₁, h₂, h₃, h₄, hname⟩
    rw [hnear] at h₁
    cases h₁
    rw [hdatacenter] at h₂
    cases h₂
    obtain ⟨rfl, hoptions⟩ := (takeOptions_append_eq_ok_iff h.front_question).1 h₃
    exact ⟨rfl, rfl, hoptions, h₄, hname⟩
  · rintro ⟨rfl, rfl, hoptions, htag, hname⟩
    exact ⟨_, _, _, hnear, hdatacenter,
      (takeOptions_append_eq_ok_iff h.front_question).2 ⟨rfl, hoptions⟩, htag, hname⟩

theorem parse_of_respelled (h : Respelled t u) (hread : parse t = .ok q) : parse u = .ok q := by
  rcases h with rfl | ⟨front, first, second, datacenter, near, ht, hu⟩
  · exact hread
  · obtain ⟨hdatacenter, hnear, hoptions, htag, hname⟩ := ht.parse_eq_ok_iff.1 hread
    refine hu.parse_eq_ok_iff.2 ⟨hdatacenter, hnear, ?_, ?_, hname⟩
    · exact readOptions_swap ht.first_ampersand ht.second_ampersand hoptions
    · exact takeTag_eq_ok_iff.2 (takeTag_eq_ok_iff.1 htag)

/-! ## The texts of one query -/

/-- A spelling with two options is taken apart at them. -/
theorem parted_of_spelling {options : String} (hq : q.Separable)
    (ho : options ∈ optionTexts q.ns q.partition)
    (hoptions : options.toList = '?' :: (first ++ '&' :: second))
    (hfirst : '&' ∉ first) (hsecond : '&' ∉ second) (htext : text.toList =
      tagged q.tag.toList ++ q.name.toList ++ options.toList ++ suffix '@' q.datacenter.toList ++
        suffix '~' q.near.toList) :
    Parted text (tagged q.tag.toList ++ q.name.toList) first second q.datacenter.toList
      q.near.toList where
  text_eq := by rw [htext, hoptions]
  front_question := by
    rw [List.mem_append, not_or, mem_tagged_of_ne (by decide)]
    exact ⟨hq.tag_question, hq.name_question⟩
  first_ampersand := hfirst
  second_ampersand := hsecond
  datacenter_at := hq.datacenter_at
  near_tilde := hq.near_tilde
  atSign hdatacenter := by
    rw [← hoptions]
    exact (not_mem_body_iff (by decide) ho).2 (hq.atSign (by simpa using hdatacenter))
  tilde hnear := by
    have htilde : ∀ part ∈ [q.tag, q.name, q.ns, q.partition] ++ [q.datacenter],
        '~' ∉ part.toList := hq.tilde (by simpa using hnear)
    obtain ⟨hbody, hdatacenter⟩ := List.forall_mem_append.1 htilde
    rw [← hoptions, List.mem_append, not_or, not_mem_body_iff (by decide) ho,
      mem_suffix_of_ne (by decide)]
    exact ⟨hbody, by simpa using hdatacenter⟩

/-- Two option texts of one scope are the same, or they are two options in either order. -/
theorem optionTexts_cases {ns partition options options' : String}
    (h : options ∈ optionTexts ns partition) (h' : options' ∈ optionTexts ns partition) :
    options = options' ∨ ∃ first second,
      (first = nsPair ns.toList ∧ second = partitionPair partition.toList ∨
        first = partitionPair partition.toList ∧ second = nsPair ns.toList) ∧
      options.toList = '?' :: (first ++ '&' :: second) ∧
      options'.toList = '?' :: (second ++ '&' :: first) := by
  unfold optionTexts at h h'
  split at h <;> split at h
  · simp_all
  · simp_all
  · simp_all
  · next hns hpartition =>
    simp only [hns, hpartition, if_false, List.mem_cons, List.not_mem_nil, or_false] at h h'
    rcases h with rfl | rfl <;> rcases h' with rfl | rfl
    · exact .inl rfl
    · exact .inr ⟨_, _, .inl ⟨rfl, rfl⟩, by simp [nsPair, partitionPair],
        by simp [nsPair, partitionPair]⟩
    · exact .inr ⟨_, _, .inr ⟨rfl, rfl⟩, by simp [nsPair, partitionPair],
        by simp [nsPair, partitionPair]⟩
    · exact .inl rfl

theorem respelled_of_parse (ht : parse t = .ok q) (hu : parse u = .ok q) : Respelled t u := by
  have hq := separable_of_parse ht
  obtain ⟨options, ho, htext⟩ := mem_spellings_iff.1 (mem_spellings_of_parse ht)
  obtain ⟨options', ho', htext'⟩ := mem_spellings_iff.1 (mem_spellings_of_parse hu)
  rcases optionTexts_cases ho ho' with rfl | ⟨first, second, hpairs, hoptions, hoptions'⟩
  · exact .inl (String.toList_injective (htext.trans htext'.symm))
  · obtain ⟨hfirst, hsecond⟩ : '&' ∉ first ∧ '&' ∉ second := by
      have hns := ampersand_not_mem_nsPair.2 hq.ns_ampersand
      have hpartition := ampersand_not_mem_partitionPair.2 hq.partition_ampersand
      rcases hpairs with ⟨rfl, rfl⟩ | ⟨rfl, rfl⟩
      · exact ⟨hns, hpartition⟩
      · exact ⟨hpartition, hns⟩
    exact .inr ⟨_, first, second, _, _, parted_of_spelling hq ho hoptions hfirst hsecond htext,
      parted_of_spelling hq ho' hoptions' hsecond hfirst htext'⟩

/-- Texts are read as one query exactly if they are the same up to the order of two options. -/
theorem parse_eq_iff_respelled (ht : parse t = .ok q) (hu : parse u = .ok q') :
    q = q' ↔ Respelled t u := by
  constructor
  · rintro rfl
    exact respelled_of_parse ht hu
  · intro h
    rw [parse_of_respelled h ht] at hu
    exact Except.ok.inj hu

/-! ## Queries in a set -/

namespace Live

variable {a b m : Live} {qs qs' : List Live}

/-- A text that is read as the query, whatever became of the signal. -/
def ReadFrom (q : Live) (text : String) : Prop := Query.parse text = .ok q.query

theorem beq_iff : (a == b) = true ↔ a.query = b.query := decide_eq_true_iff

theorem beq_iff_respelled (ha : a.ReadFrom t) (hb : b.ReadFrom u) :
    (a == b) = true ↔ Respelled t u :=
  beq_iff.trans (parse_eq_iff_respelled ha hb)

theorem nodup_distinct (qs : List Live) : ((distinct qs).toList.map query).Nodup := by
  refine List.pairwise_map.2 (Std.HashSet.distinct_toList.imp fun hne heq => ?_)
  rw [beq_iff.2 heq] at hne
  cases hne

theorem mem_distinct_iff {q : Query} :
    q ∈ (distinct qs).toList.map query ↔ q ∈ qs.map query := by
  have hcontains : (distinct qs).toList.contains { query := q } = qs.contains { query := q } :=
    Std.HashSet.contains_toList.trans Std.HashSet.contains_ofList
  have hmem (l : List Live) : q ∈ l.map query ↔ l.contains { query := q } = true := by
    rw [List.mem_map, List.contains_iff_exists_mem_beq]
    exact exists_congr fun a => and_congr_right fun _ =>
      eq_comm.trans (beq_iff (a := { query := q })).symm
  rw [hmem, hmem, hcontains]

/-- The set depends on the parts of its queries only. -/
theorem distinct_perm (h : qs.map query = qs'.map query) :
    ((distinct qs).toList.map query).Perm ((distinct qs').toList.map query) := by
  refine (List.perm_ext_iff_of_nodup (nodup_distinct qs) (nodup_distinct qs')).2 fun q => ?_
  rw [mem_distinct_iff, mem_distinct_iff, h]

/-- A set has a query at most once. -/
theorem eq_of_mem_distinct (ha : a ∈ (distinct qs).toList) (hb : b ∈ (distinct qs).toList)
    (h : a.query = b.query) : a = b :=
  List.inj_on_of_nodup_map (nodup_distinct qs) ha hb h

end Live

end Discovery.Query

/-! ## Queries of a session -/

namespace Discovery.Session

open Query (Live Respelled)

variable {s : Session} {asked : List (String × String)} {p : String × String}

/-- Each text stands under its name as a query that was read from it. -/
def Holds (s : Session) (asked : List (String × String)) : Prop :=
  ∀ p ∈ asked, ∃ q, s.live? p.1 = some q ∧ q.ReadFrom p.2

/-- The queries under the names of some texts. -/
def lives (s : Session) (asked : List (String × String)) : List Live :=
  asked.filterMap fun p => s.live? p.1

theorem Holds.mem_lives_iff (h : s.Holds asked) {q : Query} :
    q ∈ (s.lives asked).map Live.query ↔ ∃ p ∈ asked, Query.parse p.2 = .ok q := by
  rw [List.mem_map]
  constructor
  · rintro ⟨m, hm, rfl⟩
    obtain ⟨p, hp, hlive⟩ := List.mem_filterMap.1 hm
    obtain ⟨m', hm', hread⟩ := h p hp
    obtain rfl : m' = m := Option.some.inj (hm'.symm.trans hlive)
    exact ⟨p, hp, hread⟩
  · rintro ⟨p, hp, hq⟩
    obtain ⟨m, hm, hread⟩ := h p hp
    exact ⟨m, List.mem_filterMap.2 ⟨p, hp, hm⟩, Except.ok.inj (hread.symm.trans hq)⟩

/-- What a set of the queries has was read from one of the texts. -/
theorem Holds.exists_of_mem (h : s.Holds asked) {m : Live}
    (hm : m ∈ (Live.distinct (s.lives asked)).toList) : ∃ p ∈ asked, m.ReadFrom p.2 :=
  h.mem_lives_iff.1 (Live.mem_distinct_iff.1 (List.mem_map_of_mem hm))

/-- A set of the queries has one for each text, and for those that are the text respelled. -/
theorem Holds.existsUnique_mem (h : s.Holds asked) (hp : p ∈ asked) :
    ∃! m, m ∈ (Live.distinct (s.lives asked)).toList ∧
      ∀ p' ∈ asked, m.ReadFrom p'.2 ↔ Respelled p.2 p'.2 := by
  obtain ⟨q, -, hq⟩ := h p hp
  have hmem : q.query ∈ (Live.distinct (s.lives asked)).toList.map Live.query :=
    Live.mem_distinct_iff.2 (h.mem_lives_iff.2 ⟨p, hp, hq⟩)
  obtain ⟨m, hm, hmq⟩ := List.mem_map.1 hmem
  have hread : m.ReadFrom p.2 := by
    rw [Live.ReadFrom, hmq]
    exact hq
  refine ⟨m, ⟨hm, fun p' hp' => ?_⟩, fun m' hm' => ?_⟩
  · exact ⟨Query.respelled_of_parse hread, fun h => Query.parse_of_respelled h hread⟩
  · have hread' : m'.ReadFrom p.2 := (hm'.2 p hp).2 (.inl rfl)
    exact Live.eq_of_mem_distinct hm'.1 hm (Except.ok.inj (hread'.symm.trans hread))

theorem Issues.map_query_lives (h : s.Issues) (names : List String) :
    ((s.cancelAll names).lives asked).map Live.query = (s.lives asked).map Live.query := by
  rw [lives, lives, List.map_filterMap, List.map_filterMap]
  congr 1
  funext p
  rw [h.live_cancelAll]
  split
  · exact Option.map_map ..
  · rfl

end Discovery.Session

namespace Discovery.Query.Live

/-- **There is one query for each text, up to the order of two options, whatever was cancelled.**
Texts are read in a session, each under a name of its own, and some of the queries are cancelled, in
any order. Then those are cancelled and no others; two queries are equal exactly if one text is the
other respelled; and a set of the queries has one for each class of such texts, as it had before. -/
theorem one_query_for_each_spelling (cs : List Session.Command) {asked : List (String × String)}
    (hnames : (asked.map Prod.fst).Nodup) (hread : ∀ p ∈ asked, ∃ q, Query.parse p.2 = .ok q)
    (stops : List String) :
    let s : Session := (Session.run {} cs).1.readAll asked
    let s' : Session := s.cancelAll stops
    (∀ p ∈ asked, ∃ q, Query.parse p.2 = .ok q ∧ s.live? p.1 = some { query := q } ∧
      s'.live? p.1 = some { query := q, cancelled := p.1 ∈ stops }) ∧
    (∀ p ∈ asked, ∀ p' ∈ asked, ∀ a ∈ s'.live? p.1, ∀ b ∈ s'.live? p'.1,
      (a == b) = true ↔ Respelled p.2 p'.2) ∧
    (∀ p ∈ asked, ∃! m, m ∈ (distinct (s'.lives asked)).toList ∧
      ∀ p' ∈ asked, m.ReadFrom p'.2 ↔ Respelled p.2 p'.2) ∧
    (∀ m ∈ (distinct (s'.lives asked)).toList, ∃ p ∈ asked, m.ReadFrom p.2) ∧
    ((distinct (s'.lives asked)).toList.map query).Perm
      ((distinct (s.lives asked)).toList.map query) := by
  intro s s'
  have hs₀ : (Session.run {} cs).1.Issues := Session.Issues.empty.run cs
  have hs : s.Issues := hs₀.acts _
  have hlive : ∀ p ∈ asked, ∃ q, Query.parse p.2 = .ok q ∧ s.live? p.1 = some { query := q } ∧
      s'.live? p.1 = some { query := q, cancelled := p.1 ∈ stops } := by
    intro p hp
    obtain ⟨q, hq, hbefore⟩ := (hs₀.live_readAll hnames hread).2 p hp
    refine ⟨q, hq, hbefore, ?_⟩
    rw [hs.live_cancelAll, hbefore]
    by_cases hstop : p.1 ∈ stops <;> simp [hstop, cancel]
  have hholds : s'.Holds asked := by
    intro p hp
    obtain ⟨q, hq, -, hafter⟩ := hlive p hp
    exact ⟨_, hafter, hq⟩
  refine ⟨hlive, fun p hp p' hp' a ha b hb => ?_, fun p hp => hholds.existsUnique_mem hp,
    fun m hm => hholds.exists_of_mem hm, distinct_perm (hs.map_query_lives stops)⟩
  obtain ⟨a', ha', hp⟩ := hholds p hp
  obtain ⟨b', hb', hp'⟩ := hholds p' hp'
  obtain rfl : a' = a := Option.some.inj (ha'.symm.trans ha)
  obtain rfl : b' = b := Option.some.inj (hb'.symm.trans hb)
  exact beq_iff_respelled hp hp'

/-- Three texts, of which one is another with its options in the other order. -/
def spelled : List (String × String) :=
  [("a", "w?ns=a&partition=b@c@d"), ("b", "w?partition=b@c&ns=a@d"),
    ("c", "w?partition=b&ns=a@c@d")]

theorem one_query_for_each_spelling_swapped : (spelled.map Prod.fst).Nodup ∧
    (∀ p ∈ spelled, ∃ q, Query.parse p.2 = .ok q) ∧
    ∃ m ∈ (distinct (((Session.run {} []).1.readAll spelled).cancelAll ["b"] |>.lives
      spelled)).toList, m.ReadFrom "w?ns=a&partition=b@c@d" ∧ m.ReadFrom "w?partition=b@c&ns=a@d" ∧
        ¬m.ReadFrom "w?partition=b&ns=a@c@d" := by
  have hnames : (spelled.map Prod.fst).Nodup := by decide
  have hread : ∀ p ∈ spelled, ∃ q, Query.parse p.2 = .ok q := by
    refine List.forall_mem_cons.2 ⟨⟨_, rfl⟩, List.forall_mem_cons.2 ⟨⟨_, rfl⟩,
      List.forall_mem_cons.2 ⟨⟨_, rfl⟩, nofun⟩⟩⟩
  have hswapped : Respelled "w?ns=a&partition=b@c@d" "w?partition=b@c&ns=a@d" :=
    .inr ⟨['w'], "ns=a".toList, "partition=b@c".toList, ['d'], [], by constructor <;> decide,
      by constructor <;> decide⟩
  obtain ⟨-, -, hset, -⟩ := one_query_for_each_spelling [] hnames hread ["b"]
  obtain ⟨m, ⟨hm, hclass⟩, -⟩ := hset _ List.mem_cons_self
  have hfirst : m.ReadFrom "w?ns=a&partition=b@c@d" :=
    (hclass _ List.mem_cons_self).2 (.inl rfl)
  have hsecond : m.ReadFrom "w?partition=b@c&ns=a@d" :=
    (hclass _ (List.mem_cons_of_mem _ List.mem_cons_self)).2 hswapped
  have hparse : Query.parse "w?ns=a&partition=b@c@d" ≠ Query.parse "w?partition=b&ns=a@c@d" := by
    decide
  exact ⟨hnames, hread, m, hm, hfirst, hsecond, fun hthird => hparse (hfirst.trans hthird.symm)⟩

end Discovery.Query.Live
