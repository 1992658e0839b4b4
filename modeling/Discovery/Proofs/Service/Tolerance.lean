import Mathlib.Logic.Relation
import Discovery.Proofs.Service.Decoding

/-!
# What may vary in the text of an instance

Catalogs differ in what they write of an instance and in which order. What is read does not change
with the order of the members, with members that it has no field for, and with the ways to say that
a collection has nothing in it (`ofJson_tolerates`). One change is a step (`Varies`), and each step
keeps what the members make up (`Varies.ofMembers`).
-/

namespace Discovery.Service

open Json (Value Denotes Document)

variable {c : List UInt8} {e v : Value} {f : Field} {m : List UInt8 × Value}
  {ms ns : List (List UInt8 × Value)} {x : Service}

/-- The empty collection, for a field that holds one. -/
def Field.empty? : Field → Option Value
  | .taggedAddresses => some (.object [])
  | .nodeMeta => some (.object [])
  | .serviceTags => some (.array [])
  | .serviceMeta => some (.object [])
  | _ => none

/-- One change of the members of an object that keeps what is read from it. -/
inductive Varies : List (List UInt8 × Value) → List (List UInt8 × Value) → Prop where
  | perm {ms ns : List (List UInt8 × Value)} : ms.Perm ns → Varies ms ns
  | insertUnknown {c : List UInt8} {key : String} (v : Value) (ms ns : List (List UInt8 × Value)) :
      Denotes c key → (∀ f : Field, key ≠ f.wireKey) → Varies (ms ++ ns) (ms ++ (c, v) :: ns)
  | removeUnknown {c : List UInt8} {key : String} (v : Value) (ms ns : List (List UInt8 × Value)) :
      Denotes c key → (∀ f : Field, key ≠ f.wireKey) → Varies (ms ++ (c, v) :: ns) (ms ++ ns)
  | removeNull {c : List UInt8} {f : Field} {e : Value} (ms ns : List (List UInt8 × Value)) :
      Denotes c f.wireKey → f.empty? = some e → Varies (ms ++ (c, .null) :: ns) (ms ++ ns)
  | emptyNull {c : List UInt8} {f : Field} {e : Value} (ms ns : List (List UInt8 × Value)) :
      Denotes c f.wireKey → f.empty? = some e →
      Varies (ms ++ (c, .null) :: ns) (ms ++ (c, e) :: ns)
  | insertNull {c : List UInt8} {f : Field} {e : Value} (ms ns : List (List UInt8 × Value)) :
      Denotes c f.wireKey → f.empty? = some e → (∀ m ∈ ms ++ ns, ¬Names m f) →
      Varies (ms ++ ns) (ms ++ (c, .null) :: ns)

theorem OfMembers.perm (h : OfMembers ms x) (hperm : ms.Perm ns) : OfMembers ns x where
  keys m hm := h.keys m (hperm.mem_iff.2 hm)
  once := by
    refine (hperm.pairwise_iff fun hmn f hn hm => ?_).1 h.once
    exact hmn f hm hn
  given m hm := h.given m (hperm.mem_iff.2 hm)
  missing f hf := h.missing f fun m hm => hf m (hperm.mem_iff.1 hm)

theorem ofMembers_middle_iff :
    OfMembers (ms ++ m :: ns) x ↔ OfMembers (m :: (ms ++ ns)) x :=
  ⟨fun h => h.perm List.perm_middle, fun h => h.perm List.perm_middle.symm⟩

/-- A member of no field may be left out. -/
theorem ofMembers_cons_of_not_names (hkey : ∃ key, Denotes m.1 key) (hm : ∀ f, ¬Names m f) :
    OfMembers (m :: ms) x ↔ OfMembers ms x := by
  rw [← continues_default_iff, continues_cons_of_not_names hkey hm, continues_default_iff]

/-- A member that leaves a field at its default may be left out. -/
theorem ofMembers_cons_of_default (hf : Names m f)
    (hdefault : ∀ x : Service, (x.get f).Of m.2 ↔ x.get f = get {} f) :
    OfMembers (m :: ms) x ↔ (∀ n ∈ ms, ¬Names n f) ∧ OfMembers ms x := by
  constructor
  · intro h
    obtain ⟨honce, hrest⟩ := List.pairwise_cons.1 h.once
    refine ⟨fun n hn => honce n hn f hf, fun n hn => h.keys n (List.mem_cons_of_mem m hn), hrest,
      fun n hn => h.given n (List.mem_cons_of_mem m hn), fun g hg => ?_⟩
    by_cases hgf : Names m g
    · rw [hgf.eq hf]
      exact (hdefault x).1 (h.given m List.mem_cons_self f hf)
    · exact h.missing g (List.forall_mem_cons.2 ⟨hgf, hg⟩)
  · rintro ⟨hother, h⟩
    refine ⟨List.forall_mem_cons.2 ⟨⟨_, hf⟩, h.keys⟩,
      List.pairwise_cons.2 ⟨fun n hn g hg => hg.eq hf ▸ hother n hn, h.once⟩,
      List.forall_mem_cons.2 ⟨fun g hg => ?_, h.given⟩,
      fun g hg => h.missing g (List.forall_mem_cons.1 hg).2⟩
    rw [hg.eq hf]
    exact (hdefault x).2 (h.missing f hother)

theorem isLabels_empty_iff {l : Labels} : IsLabels (.object []) l ↔ l = {} := by
  constructor
  · rintro ⟨ms, hms, h⟩
    cases hms
    cases h
    rfl
  · rintro rfl
    exact ⟨[], rfl, .nil _⟩

theorem isTags_empty_iff {ts : List String} : IsTags (.array []) ts ↔ ts = [] := by
  constructor
  · rintro ⟨vs, hvs, h⟩
    cases hvs
    cases h
    rfl
  · rintro rfl
    exact ⟨[], rfl, .nil⟩

/-- Null and the empty collection leave a field at its default. -/
theorem of_iff_default (hf : f.empty? = some e) (hv : v = .null ∨ v = e) (x : Service) :
    (x.get f).Of v ↔ x.get f = get {} f := by
  cases f <;> cases hf <;> rcases hv with rfl | rfl <;>
    simp [get, Content.Of, isLabels_empty_iff, isTags_empty_iff, not_isLabels_null, not_isTags_null]

theorem ofMembers_insert_unknown {key : String} (hkey : Denotes c key)
    (hunknown : ∀ f : Field, key ≠ f.wireKey) (v : Value) :
    OfMembers (ms ++ (c, v) :: ns) x ↔ OfMembers (ms ++ ns) x := by
  have hnot (f : Field) : ¬Names (c, v) f := fun hf => hunknown f (eq_of_denotes hkey hf)
  rw [ofMembers_middle_iff, ofMembers_cons_of_not_names ⟨key, hkey⟩ hnot]

theorem ofMembers_insert_default (hkey : Denotes c f.wireKey) (hempty : f.empty? = some e)
    (hv : v = .null ∨ v = e) : OfMembers (ms ++ (c, v) :: ns) x ↔
      (∀ m ∈ ms ++ ns, ¬Names m f) ∧ OfMembers (ms ++ ns) x := by
  rw [ofMembers_middle_iff]
  exact ofMembers_cons_of_default hkey (of_iff_default hempty hv)

/-- A change of the members keeps the instance that they make up. -/
theorem Varies.ofMembers (hvaries : Varies ms ns) (h : OfMembers ms x) : OfMembers ns x := by
  cases hvaries with
  | perm hperm => exact h.perm hperm
  | insertUnknown v ms ns hkey hunknown => exact (ofMembers_insert_unknown hkey hunknown v).2 h
  | removeUnknown v ms ns hkey hunknown => exact (ofMembers_insert_unknown hkey hunknown v).1 h
  | removeNull ms ns hkey hempty => exact ((ofMembers_insert_default hkey hempty (.inl rfl)).1 h).2
  | emptyNull ms ns hkey hempty =>
    have hrest := (ofMembers_insert_default hkey hempty (.inl rfl)).1 h
    exact (ofMembers_insert_default hkey hempty (.inr rfl)).2 hrest
  | insertNull ms ns hkey hempty habsent =>
    exact (ofMembers_insert_default hkey hempty (.inl rfl)).2 ⟨habsent, h⟩

/-- An object is read as an instance by its members. -/
theorem ofJson_object_iff {text : List UInt8} (htext : Document (.object ms) text) :
    ofJson text = .ok x ↔ OfMembers ms x := by
  rw [ofJson_eq_ok_iff]
  constructor
  · rintro ⟨v, hv, his⟩
    cases hv.unique htext
    cases his with
    | object h => exact h
  · exact fun h => ⟨.object ms, htext, .object h⟩

/-- **What the text of an instance may vary in.** From an object that is read as an instance, any
text is read as the same one whose members are those of the object, but for their order, for members
with keys of no field, and for collections that are null, empty or missing. -/
theorem ofJson_tolerates {text text' : List UInt8} (htext : Document (.object ms) text)
    (hread : ofJson text = .ok x) (hvaries : Relation.ReflTransGen Varies ms ns)
    (htext' : Document (.object ns) text') : ofJson text' = .ok x := by
  have hmembers := (ofJson_object_iff htext).1 hread
  refine (ofJson_object_iff htext').2 ?_
  clear htext'
  induction hvaries with
  | refl => exact hmembers
  | tail _ hvaries ih => exact hvaries.ofMembers ih

/-- A null collection that is emptied, members that change places, and an unknown one that is put
between them. -/
theorem ofJson_tolerates_unknown :
    let node : List UInt8 × Value := (Text.utf8 "Node", .string (Text.utf8 "n"))
    let null : List UInt8 × Value := (Text.utf8 "NodeMeta", .null)
    let empty : List UInt8 × Value := (Text.utf8 "NodeMeta", .object [])
    let unknown : List UInt8 × Value := (Text.utf8 "x", .array [.object []])
    let text := Text.utf8 "\x7b\"Node\":\"n\",\"NodeMeta\":null\x7d"
    let text' := Text.utf8 "\x7b \"NodeMeta\":\x7b\x7d,\"x\":[\x7b\x7d],\"Node\":\"n\"\x7d"
    Document (.object [node, null]) text ∧ ofJson text = .ok { node := "n" } ∧
      Relation.ReflTransGen Varies [node, null] [empty, unknown, node] ∧
      Document (.object [empty, unknown, node]) text' ∧ ofJson text' = .ok { node := "n" } := by
  intro node null empty unknown text text'
  have hnode : Denotes (Text.utf8 "Node") "Node" := Json.denotes_utf8 rfl
  have hmeta : Denotes (Text.utf8 "NodeMeta") "NodeMeta" := Json.denotes_utf8 rfl
  have hx : Denotes (Text.utf8 "x") "x" := Json.denotes_utf8 rfl
  have hn : Denotes (Text.utf8 "n") "n" := Json.denotes_utf8 rfl
  have htokens : text = Json.openBrace :: Json.quote :: (Text.utf8 "Node" ++ Json.quote ::
      Json.colon :: Json.quote :: (Text.utf8 "n" ++ Json.quote :: Json.comma :: Json.quote ::
      (Text.utf8 "NodeMeta" ++ Json.quote :: Json.colon :: (Text.utf8 "null" ++
      [Json.closeBrace])))) := rfl
  have htext : Document (.object [node, null]) text := by
    rw [htokens]
    exact ⟨[], .object rfl ⟨hnode.isContent, _, rfl, rfl⟩ (.scalar (.string hn.isContent) rfl)
      (.member rfl ⟨hmeta.isContent, _, rfl, rfl⟩ (.scalar .null rfl) (.noMember rfl)), rfl⟩
  have htokens' : text' = Json.openBrace :: 0x20 :: Json.quote :: (Text.utf8 "NodeMeta" ++
      Json.quote :: Json.colon :: Json.openBrace :: Json.closeBrace :: Json.comma :: Json.quote ::
      (Text.utf8 "x" ++ Json.quote :: Json.colon :: Json.openBracket :: Json.openBrace ::
      Json.closeBrace :: Json.closeBracket :: Json.comma :: Json.quote :: (Text.utf8 "Node" ++
      Json.quote :: Json.colon :: Json.quote :: (Text.utf8 "n" ++
      [Json.quote, Json.closeBrace])))) := rfl
  have htext' : Document (.object [empty, unknown, node]) text' := by
    rw [htokens']
    exact ⟨[], .object rfl ⟨hmeta.isContent, _, rfl, rfl⟩ (.emptyObject rfl rfl)
      (.member rfl ⟨hx.isContent, _, rfl, rfl⟩
        (.array rfl (.emptyObject rfl rfl) (.noElement rfl))
        (.member rfl ⟨hnode.isContent, _, rfl, rfl⟩ (.scalar (.string hn.isContent) rfl)
          (.noMember rfl))), rfl⟩
  have hunknown : ∀ f : Field, "x" ≠ f.wireKey := by
    rintro (_ | _) <;> decide
  have hvaries : Relation.ReflTransGen Varies [node, null] [empty, unknown, node] :=
    ((Relation.ReflTransGen.single (.emptyNull [node] [] (f := .nodeMeta) hmeta rfl)).tail
      (.perm (.swap empty node []))).tail (.insertUnknown _ [empty] [node] hx hunknown)
  have hmembers : Continues {} [node, null] { node := "n" } := by
    refine (continues_cons_of_names (m := node) (f := .node) hnode).2
      ⟨List.not_mem_nil, { node := "n" }, ⟨_, rfl, hn⟩, ?_⟩
    exact (continues_cons_of_names (m := null) (f := .nodeMeta) hmeta).2
      ⟨by decide, {}, .inl ⟨rfl, rfl⟩, continues_nil_iff.2 rfl⟩
  have hread : ofJson text = .ok { node := "n" } :=
    (ofJson_object_iff htext).2 (continues_default_iff.1 hmembers)
  exact ⟨htext, hread, hvaries, htext', ofJson_tolerates htext hread hvaries htext'⟩

end Discovery.Service
