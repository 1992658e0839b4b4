import Mathlib.Data.List.Induction
import Discovery.Proofs.Http.Path
import Discovery.Proofs.Url.Form

/-!
# The parameters of a request

The query string of a request, split and decoded, is what the lookup asks for, and the text of the
URL shows it behind its only question mark (`serviceUrl_asks`). Nothing of the address that the
client was made for gets into it.
-/

namespace Discovery.Http

open Url (Unmarked formPairs formText queryOf pushSegment)

variable {c : Client} {q : Lookup.Request} {url : Url} {settings : ServerSettings}

/-- What a lookup asks for besides a service: names and values, in order. -/
def asked (q : Lookup.Request) : List (String × String) :=
  [("tag", q.tag),
    ("dc", q.options.datacenter.filter (· ≠ "")),
    ("near", q.options.near.filter (· ≠ "")),
    ("ns", q.options.ns.filter (· ≠ "")),
    ("partition", q.options.partition.filter (· ≠ "")),
    ("index", q.options.waitIndex.map Text.decimal),
    ("wait", q.options.waitTime.map Client.waitText),
    ("stale", if q.options.allowStale then some "" else none)].filterMap
      fun p => p.2.map fun value => (p.1, value)

theorem filterMap_parameter (name : String) (value : Option String)
    (ps : List (String × Option String)) :
    ((name, value) :: ps).filterMap (fun p => p.2.map fun v => (p.1, v)) =
      Client.parameter name value ++ ps.filterMap fun p => p.2.map fun v => (p.1, v) := by
  cases value <;> rfl

theorem parameters_eq_asked (q : Lookup.Request) : Client.parameters q = asked q := by
  unfold asked
  simp only [filterMap_parameter, List.filterMap_nil, List.append_nil]
  simp only [Client.parameters, List.append_assoc]

theorem filter_parameter (name other : String) (value : Option String) :
    (Client.parameter name value).filter (fun p => p.1 = other) =
      if name = other then Client.parameter name value else [] := by
  cases value with
  | none => simp [Client.parameter]
  | some value => by_cases hname : name = other <;> simp [Client.parameter, hname]

/-! ## The text up to the query -/

theorem text_segments_unmarked {ss : List String} (hss : ∀ s ∈ ss, Unmarked s.toList) :
    Unmarked (Url.Path.segments ss).text.toList := by
  induction ss using List.reverseRecOn with
  | nil => decide
  | append_singleton ss s ih =>
    rw [text_segments_concat, String.toList_append, String.toList_append]
    have hfront := ih fun t ht => hss t (List.mem_append_left _ ht)
    exact (hfront.append (by decide)).append (hss s (by simp))

theorem keepsSegment_mark {d : Char} (hd : Url.IsMark d) (special : Bool) :
    Url.keepsSegment special d = false := by
  rcases hd with rfl | rfl <;> cases special <;> decide

theorem pushSegment_unmarked {front : List String} (hfront : ∀ s ∈ front, Unmarked s.toList)
    (special : Bool) (name : List Char) :
    ∀ s ∈ pushSegment special front name, Unmarked s.toList := by
  have hempty : Unmarked "".toList := by decide
  have hconcat {ss : List String} (hss : ∀ s ∈ ss, Unmarked s.toList) {t : String}
      (ht : Unmarked t.toList) : ∀ s ∈ ss ++ [t], Unmarked s.toList := by
    intro s hs
    obtain hs | hs := List.mem_append.1 hs
    · exact hss s hs
    · rwa [List.mem_singleton.1 hs]
  unfold pushSegment
  split
  · exact hfront
  · extract_lets kept
    split
    · exact hconcat hfront hempty
    · split
      · exact hconcat (fun s hs => hfront s (List.dropLast_subset _ hs)) hempty
      · refine hconcat hfront ?_
        rw [String.toList_ofList]
        exact Url.percentEncode_unmarked (fun d hd => keepsSegment_mark hd special) _

theorem serviceUrl_path_unmarked (hurl : c.serviceUrl q = .ok url) :
    Unmarked url.path.text.toList := by
  obtain ⟨-, rfl⟩ := serviceUrl_eq_ok_iff.1 hurl
  apply text_segments_unmarked
  exact pushSegment_unmarked (by decide) _ _

/-- Up to its query, the text of a URL that a lookup is made at has no mark. -/
theorem serviceUrl_front_unmarked [Tables] (hclient : Client.ofSettings settings = .ok c)
    (hurl : c.serviceUrl q = .ok url) : Unmarked url.front.toList := by
  have hpath := serviceUrl_path_unmarked hurl
  obtain ⟨-, rfl⟩ := serviceUrl_eq_ok_iff.1 hurl
  have hclean := (Url.parse_wellFormed (base_of_ofSettings hclient)).clean
  exact Url.front_unmarked hclean hpath

/-! ## The query -/

/-- What stands behind the first question mark of a URL. -/
def shownQuery (text : String) : Option (List Char) :=
  (Text.cutFirst '?' text.toList).map Prod.snd

theorem serviceUrl_query (hurl : c.serviceUrl q = .ok url) :
    url.query = queryOf (asked q) ∧ url.fragment = none := by
  obtain ⟨-, rfl⟩ := serviceUrl_eq_ok_iff.1 hurl
  exact ⟨congrArg queryOf (parameters_eq_asked q), rfl⟩

/-- A query string fixes its parameters, and whether there are any. -/
theorem queryOf_inj {ps qs : List (String × String)} : queryOf ps = queryOf qs ↔ ps = qs := by
  refine ⟨fun h => ?_, congrArg queryOf⟩
  unfold queryOf at h
  split at h
  · next hps =>
    split at h
    · next hqs => rw [hps, hqs]
    · cases h
  · split at h
    · cases h
    · exact Url.formText_injective (String.ofList_injective (Option.some.inj h))

theorem toList_marked (query : Option String) :
    (Url.marked "?" query).toList = (query.map fun s => '?' :: s.toList).getD [] := by
  cases query with
  | none => rfl
  | some query =>
    rw [Url.marked, Option.map_some, Option.getD_some, String.toList_append]
    rfl

/-- The text of a URL without a fragment: behind what comes first stands the query, if any. -/
theorem toList_text (hfragment : url.fragment = none) :
    url.text.toList = url.front.toList ++ (url.query.map fun s => '?' :: s.toList).getD [] := by
  rw [Url.text_eq_front, hfragment, String.toList_append, String.toList_append, toList_marked]
  exact List.append_nil _

/-- A query behind a text without marks is shown. -/
theorem shownQuery_append_marked {front : String} (hfront : Unmarked front.toList)
    (query : Option String) :
    shownQuery (front ++ Url.marked "?" query) = query.map String.toList := by
  have hmark : '?' ∉ front.toList := fun h => hfront _ h (.inl rfl)
  rw [shownQuery, String.toList_append, toList_marked]
  cases query with
  | none =>
    rw [Option.map_none, Option.getD_none, List.append_nil, Text.cutFirst_eq_none_iff.2 hmark]
    rfl
  | some query =>
    rw [Option.map_some, Option.getD_some, Text.cutFirst_eq_some_iff.2 ⟨rfl, hmark⟩]
    rfl

theorem shownQuery_text (hfront : Unmarked url.front.toList) (hfragment : url.fragment = none) :
    shownQuery url.text = url.query.map String.toList := by
  rw [Url.text_eq_front, hfragment]
  exact (congrArg shownQuery String.append_empty).trans (shownQuery_append_marked hfront url.query)

theorem shownQuery_eq_none_iff {text : String} : shownQuery text = none ↔ '?' ∉ text.toList := by
  rw [shownQuery, Option.map_eq_none_iff, Text.cutFirst_eq_none_iff]

theorem queryOf_eq_none_iff {ps : List (String × String)} : queryOf ps = none ↔ ps = [] := by
  unfold queryOf
  split <;> simp_all

/-- A query string is read back to its parameters. -/
theorem formPairs_queryOf (ps : List (String × String)) :
    formPairs (((queryOf ps).map String.toList).getD []) =
      ps.map fun p => (Text.utf8 p.1, Text.utf8 p.2) := by
  unfold queryOf
  split
  · next h =>
    rw [h]
    rfl
  · rw [Option.map_some, Option.getD_some, String.toList_ofList]
    exact Url.formPairs_formText ps

theorem hash_notMem_queryOf (ps : List (String × String)) :
    '#' ∉ ((queryOf ps).map fun s => '?' :: s.toList).getD [] := by
  unfold queryOf
  split
  · exact List.not_mem_nil
  · rw [Option.map_some, Option.getD_some, String.toList_ofList]
    exact List.not_mem_cons_of_ne_of_not_mem (by decide)
      (Url.IsFormSign.notMem_formText (by decide) (by decide) (by decide) ps)

/-- **What a lookup asks for besides the service.** The query string that its URL shows, split and
decoded, is the list of what is asked, and there is none when nothing is asked. It is fixed by that
list and fixes it, whatever the address; nothing stands behind it. -/
theorem serviceUrl_asks [Tables] (hclient : Client.ofSettings settings = .ok c)
    (hurl : c.serviceUrl q = .ok url) :
    shownQuery url.text = url.query.map String.toList ∧
    formPairs ((shownQuery url.text).getD []) =
      (asked q).map (fun p => (Text.utf8 p.1, Text.utf8 p.2)) ∧
    ('?' ∉ url.text.toList ↔ asked q = []) ∧ '#' ∉ url.text.toList ∧
    ∀ c' q' url', Client.serviceUrl c' q' = .ok url' →
      (url'.query = url.query ↔ asked q' = asked q) := by
  obtain ⟨hquery, hfragment⟩ := serviceUrl_query hurl
  have hfront := serviceUrl_front_unmarked hclient hurl
  have hshown := shownQuery_text hfront hfragment
  refine ⟨hshown, ?_, ?_, ?_, ?_⟩
  · rw [hshown, hquery]
    exact formPairs_queryOf (asked q)
  · rw [← shownQuery_eq_none_iff, hshown, Option.map_eq_none_iff, hquery]
    exact queryOf_eq_none_iff
  · rw [toList_text hfragment, hquery, List.mem_append, not_or]
    exact ⟨fun h => hfront _ h (.inr rfl), hash_notMem_queryOf (asked q)⟩
  · intro c' q' url' hurl'
    rw [hquery, (serviceUrl_query hurl').1]
    exact queryOf_inj

/-- An address with a query and a fragment of its own, and values that hold the signs between
parameters. -/
theorem serviceUrl_asks_signs :
    let q : Lookup.Request := {
      name := "web", tag := some ""
      options := {
        datacenter := some "a&b=c", near := some "+ %\t#?", ns := some "", partition := some "é"
        waitIndex := some 17, waitTime := some (.ofSeconds 30), allowStale := true } }
    ∃ c url, Client.ofSettings { address := "http://u:p@Node.example:80/a?dc=x#y" } = .ok c ∧
      c.serviceUrl q = .ok url ∧
      formPairs ((shownQuery url.text).getD []) =
        [("tag", ""), ("dc", "a&b=c"), ("near", "+ %\t#?"), ("partition", "é"), ("index", "17"),
          ("wait", "30s"), ("stale", "")].map fun p => (Text.utf8 p.1, Text.utf8 p.2) := by
  intro q
  obtain ⟨c, hclient, hpath⟩ : ∃ c,
      Client.ofSettings { address := "http://u:p@Node.example:80/a?dc=x#y" } = .ok c ∧
        ∃ ss, c.base.path = .segments ss := ⟨_, rfl, _, rfl⟩
  obtain ⟨url, hurl⟩ := exists_serviceUrl hpath q
  have hasked : asked q = [("tag", ""), ("dc", "a&b=c"), ("near", "+ %\t#?"), ("partition", "é"),
      ("index", "17"), ("wait", "30s"), ("stale", "")] := by decide
  exact ⟨c, url, hclient, hurl, hasked ▸ (serviceUrl_asks hclient hurl).2.1⟩

end Discovery.Http
