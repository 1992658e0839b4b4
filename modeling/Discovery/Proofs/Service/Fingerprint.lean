import Mathlib.Data.List.Forall2
import Discovery.Lookup.Fetch
import Discovery.Proofs.Json.Legible
import Discovery.Proofs.Service.Same

/-!
# What a fingerprint tells

The text that a fingerprint is the digest of tells the result in its order, up to the order of
labels, and nothing else. It is legible because the text of each field is, in the sense of
`Json.Legible`; and the order in which it takes the instances is that of a fetch, so that it is the
same before and after the result is sorted.
-/

namespace Discovery.Service

open Json (Legible Apart)

variable {key : Field → String} {depth : Nat} {s t : Service} {xs ys : List Service}

theorem legible_labels (depth : Nat) : Legible (labelsJson .compact depth) := by
  have hentries : Legible fun entries : List (String × String) =>
      Json.Layout.compact.bracketed depth '\x7b' '\x7d'
        (entries.map fun e => Json.member e.1 (Json.string e.2)) :=
    Json.legible_member.bracketed (by decide) (by decide) fun e => Json.opens_member _ _
  intro a b r s hr hs heq
  simp only [labelsJson, Json.object_compact, List.map_map, Function.comp_def] at heq
  obtain ⟨hab, hrs⟩ := hentries hr hs heq
  exact ⟨Labels.ext_entries hab, hrs⟩

theorem legible_port : Legible fun port : UInt16 => Json.number port.toNat :=
  Json.legible_number.comp fun _ _ => UInt16.toNat_inj.1

/-- The texts of a field in two instances can be told apart. -/
theorem Field.apart (f : Field) (s t : Service) :
    Apart (f.json .compact depth s) (f.json .compact depth t) := by
  cases f with
  | id | node | address | datacenter | serviceId | serviceName | serviceAddress =>
    exact Json.legible_string.apart _ _
  | taggedAddresses | nodeMeta | serviceMeta => exact (legible_labels depth).apart _ _
  | serviceTags => exact (Json.legible_strings depth).apart _ _
  | servicePort => exact legible_port.apart _ _

/-- The texts of the fields tell the instance. -/
theorem eq_of_field_json_eq (depth : Nat)
    (h : ∀ f : Field, f.json .compact depth s = f.json .compact depth t) : s = t := by
  have hstring := Json.legible_string.injective
  have hlabels := (legible_labels depth).injective
  have htags := (Json.legible_strings depth).injective
  obtain ⟨⟩ := s
  obtain ⟨⟩ := t
  simp only [Service.mk.injEq]
  exact ⟨hstring (h .id), hstring (h .node), hstring (h .address), hstring (h .datacenter),
    hlabels (h .taggedAddresses), hlabels (h .nodeMeta), hstring (h .serviceId),
    hstring (h .serviceName), hstring (h .serviceAddress), htags (h .serviceTags),
    hlabels (h .serviceMeta), legible_port.injective (h .servicePort)⟩

theorem legible_json : Legible (json key .compact depth) := by
  intro s t r r' hr hr' heq
  simp only [json, Json.object_compact, List.map_map, Function.comp_def] at heq
  have hopens (s : Service) : ∀ p ∈ Field.all.map fun f =>
      Json.member (key f) (f.json .compact (depth + 1) s), Json.Opens '\x7d' p := by
    intro p hp
    obtain ⟨f, -, rfl⟩ := List.mem_map.1 hp
    exact Json.opens_member _ _
  have hapart : ∀ x ∈ (Field.all.map fun f =>
        Json.member (key f) (f.json .compact (depth + 1) s)).zip
      (Field.all.map fun f => Json.member (key f) (f.json .compact (depth + 1) t)),
      Apart x.1 x.2 := by
    intro x hx
    rw [List.zip_map', List.mem_map] at hx
    obtain ⟨f, -, rfl⟩ := hx
    exact ((f.apart s t).append_left [':']).append_left (Json.string (key f))
  obtain ⟨hfields, hrest⟩ :=
    Json.bracketed_append_inj (by decide) (by decide) (hopens s) (hopens t) hapart heq
  refine ⟨eq_of_field_json_eq (depth + 1) fun f => ?_, hrest⟩
  have hmember := List.map_inj_left.1 hfields f (Field.mem_all f)
  exact (List.cons.inj (List.append_cancel_left hmember)).2

theorem opens_json (s : Service) : Json.Opens ']' (json key .compact depth s) := by
  unfold json Json.Layout.object
  exact Json.opens_bracketed (by decide) _

theorem listJson_injective : Function.Injective (listJson key .compact) := by
  have hlist : Legible (listJson key .compact) :=
    legible_json.bracketed (by decide) (by decide) opens_json
  exact hlist.injective

/-! ## Digests -/

/-- The instances are written in the order of results. -/
theorem digestText_eq (xs : List Service) :
    digestText xs = String.ofList (listJson Field.digestKey .compact (sort (xs.map sorted))) := by
  have hplaces : (places xs).map (fun i => sorted xs[i]) = sort (xs.map sorted) := by
    rw [← map_sort sortKey_sorted, ← map_places, List.map_map]
    rfl
  rw [digestText, hplaces]

theorem digestText_inj :
    digestText xs = digestText ys ↔ sort (xs.map sorted) = sort (ys.map sorted) := by
  rw [digestText_eq, digestText_eq, String.ofList_inj, listJson_injective.eq_iff]

theorem digestText_sort (xs : List Service) : digestText (sort xs) = digestText xs := by
  rw [digestText_inj, ← map_sort sortKey_sorted, sort_sort, map_sort sortKey_sorted]

theorem fingerprint_sort (xs : List Service) : fingerprint (sort xs) = fingerprint xs := by
  rw [fingerprint, digestText_sort, fingerprint]

theorem fingerprint_congr (h : List.Forall₂ Same xs ys) : fingerprint xs = fingerprint ys := by
  rw [fingerprint, fingerprint, digestText_inj.2 (congrArg sort (map_sorted_eq_iff.2 h))]

/-- Putting an instance in the place of one that is not the same is seen, wherever that stands. -/
theorem digestText_set_eq_iff {xs : List Service} (i : Fin xs.length) (s : Service) :
    digestText (xs.set i s) = digestText xs ↔ s.Same (xs.get i) := by
  rw [digestText_inj, ← sorted_eq_iff]
  have hcut : xs.map sorted =
      (xs.take i).map sorted ++ (xs.get i).sorted :: (xs.drop (i + 1)).map sorted := by
    rw [← List.map_cons, ← List.map_append]
    simp
  have hset : (xs.set i s).map sorted =
      (xs.take i).map sorted ++ s.sorted :: (xs.drop (i + 1)).map sorted := by
    rw [List.set_eq_take_cons_drop s i.isLt, List.map_append, List.map_cons]
  rw [hset, hcut]
  constructor
  · intro h
    have hrest := (List.perm_append_left_iff _).1 (perm_of_sort_eq h)
    have hone : [s.sorted].Perm [(xs.get i).sorted] := (List.perm_append_right_iff _).1 hrest
    exact List.singleton_inj.1 (List.perm_singleton.1 hone)
  · intro h
    rw [h]

/-- **The text behind a fingerprint tells the sorted result**, every field of every instance, with
labels as maps and tags as sequences. It is the same for a client's answer and for the result that a
fetch makes of it, and any change of an instance changes it. -/
theorem digestText_eq_iff_forall₂_same :
    (∀ xs ys : List Service,
      digestText xs = digestText ys ↔ List.Forall₂ Same (sort xs) (sort ys)) ∧
    (∀ xs : List Service, digestText (sort xs) = digestText xs) ∧
    (∀ (q : Query) (found : Lookup.Found),
      (Lookup.conclude q (.ok found)).map (fun r => fingerprint r.services) =
        .ok (fingerprint found.services)) ∧
    ∀ (xs : List Service) (i : Fin xs.length) (s : Service),
      digestText (xs.set i s) = digestText xs ↔ s.Same (xs.get i) := by
  refine ⟨fun xs ys => ?_, digestText_sort, fun q found => ?_,
    fun xs i s => digestText_set_eq_iff i s⟩
  · rw [digestText_inj, ← map_sort sortKey_sorted, ← map_sort sortKey_sorted, map_sorted_eq_iff]
  · exact congrArg Except.ok (fingerprint_sort found.services)

end Discovery.Service
