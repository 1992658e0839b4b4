import Discovery.Proofs.Json.Decoding
import Discovery.Proofs.Service.Wire

/-!
# Which values are instances

An instance is read from an object by the keys of its members, or from an array by the places of its
elements (`IsService`). Fields that are not given are at their default. Those values, in whatever
writing, are all that is read as an instance (`ofJson_eq_ok_iff`) or in a list of them
(`listOfJson_eq_ok_iff`).
-/

namespace Discovery.Service

open Json (Value IsText Denotes Leads Document Spells Reader DecodesMembers)

variable {α : Type} {r s t u w : List UInt8} {f g : Field} {fs : List Field} {v : Value}
  {vs : List Value} {m : List UInt8 × Value} {ms : List (List UInt8 × Value)}
  {x y z : Service} {d d' : Draft}

/-! ## Fields -/

/-- What a field holds. -/
inductive Content where
  | text (t : String)
  | labels (l : Labels)
  | tags (ts : List String)
  | port (p : UInt16)

def get (x : Service) : Field → Content
  | .id => .text x.id
  | .node => .text x.node
  | .address => .text x.address
  | .datacenter => .text x.datacenter
  | .taggedAddresses => .labels x.taggedAddresses
  | .nodeMeta => .labels x.nodeMeta
  | .serviceId => .text x.serviceId
  | .serviceName => .text x.serviceName
  | .serviceAddress => .text x.serviceAddress
  | .serviceTags => .tags x.serviceTags
  | .serviceMeta => .labels x.serviceMeta
  | .servicePort => .port x.servicePort

theorem get_copy (f g : Field) (x y : Service) :
    (f.copy x y).get g = if g = f then x.get f else y.get g := by
  cases f <;> cases g <;> rfl

theorem ext_get (h : ∀ f, x.get f = y.get f) : x = y := by
  cases x
  cases y
  simp only [mk.injEq]
  exact ⟨Content.text.inj (h .id), Content.text.inj (h .node), Content.text.inj (h .address),
    Content.text.inj (h .datacenter), Content.labels.inj (h .taggedAddresses),
    Content.labels.inj (h .nodeMeta), Content.text.inj (h .serviceId),
    Content.text.inj (h .serviceName), Content.text.inj (h .serviceAddress),
    Content.tags.inj (h .serviceTags), Content.labels.inj (h .serviceMeta),
    Content.port.inj (h .servicePort)⟩

/-- An object of texts; of members with one key the last counts. -/
def IsLabels (v : Value) (l : Labels) : Prop :=
  ∃ ms, v = .object ms ∧
    Leads (fun l key v l' => ∃ text, IsText v text ∧ l' = l.insert key text) ({} : Labels) ms l

def IsTags (v : Value) (ts : List String) : Prop :=
  ∃ vs, v = .array vs ∧ List.Forall₂ IsText vs ts

theorem not_isLabels_null {l : Labels} : ¬IsLabels .null l := fun ⟨_, h, _⟩ => nomatch h

theorem not_isTags_null {ts : List String} : ¬IsTags .null ts := fun ⟨_, h, _⟩ => nomatch h

/-- The values that a field is read from. -/
def Content.Of (v : Value) : Content → Prop
  | .text t => IsText v t
  | .labels l => v = .null ∧ l = {} ∨ IsLabels v l
  | .tags ts => v = .null ∧ ts = [] ∨ IsTags v ts
  | .port p => v = .number (Json.bytes (Json.number p.toNat))

theorem decodes_labels : labelsReader.Decodes IsLabels := by
  refine Json.decodes_object ⟨fun hreader => ?_, fun _ => ⟨_, rfl⟩⟩ ({} : Labels)
  cases hreader
  exact Json.decodes_string.map _

theorem decodes_orNull {reader : Reader α} {Is : Value → α → Prop} (h : reader.Decodes Is)
    (hnull : ∀ a, ¬Is .null a) (default : α) (put : α → Service) :
    (reader.orNull.map fun o => put (o.getD default)).Decodes fun v x =>
      ∃ a, (v = .null ∧ a = default ∨ Is v a) ∧ x = put a := by
  refine ((h.orNull hnull).map _).congr fun v x => ?_
  constructor
  · rintro ⟨o, ⟨rfl, rfl⟩ | ⟨a, his, rfl⟩, rfl⟩
    · exact ⟨default, .inl ⟨rfl, rfl⟩, rfl⟩
    · exact ⟨a, .inr his, rfl⟩
  · rintro ⟨a, ⟨rfl, rfl⟩ | his, rfl⟩
    · exact ⟨none, .inl ⟨rfl, rfl⟩, rfl⟩
    · exact ⟨some a, .inr ⟨a, his, rfl⟩, rfl⟩

/-- A reader decodes a field if it puts what it reads into that field. -/
theorem decodes_field {reader : Reader Service} {Is : Value → α → Prop} {put : α → Service}
    {part : Service → α} (h : reader.Decodes fun v x => ∃ a, Is v a ∧ x = put a)
    (hof : ∀ v x, (get x f).Of v ↔ Is v (part x)) (hput : ∀ x, f.copy x y = put (part x))
    (hpart : ∀ v a, Is v a → part (put a) = a) :
    reader.Decodes fun v z => ∃ x : Service, (x.get f).Of v ∧ z = f.copy x y := by
  refine h.congr fun v z => ?_
  constructor
  · rintro ⟨a, his, rfl⟩
    have ha := hpart v a his
    exact ⟨put a, (hof v _).2 (ha.symm ▸ his), by rw [hput, ha]⟩
  · rintro ⟨x, hx, rfl⟩
    exact ⟨part x, (hof v x).1 hx, hput x⟩

theorem decodes_text_field (put : String → Service) (part : Service → String)
    (hof : ∀ v x, (get x f).Of v ↔ IsText v (part x)) (hput : ∀ x, f.copy x y = put (part x))
    (hpart : ∀ a, part (put a) = a) : (Reader.string.map put).Decodes fun v z =>
      ∃ x : Service, (x.get f).Of v ∧ z = f.copy x y :=
  decodes_field (Json.decodes_string.map put) hof hput fun _ a _ => hpart a

theorem decodes_labels_field (put : Labels → Service) (part : Service → Labels)
    (hof : ∀ v x, (get x f).Of v ↔ v = .null ∧ part x = {} ∨ IsLabels v (part x))
    (hput : ∀ x, f.copy x y = put (part x)) (hpart : ∀ a, part (put a) = a) :
    (labelsReader.orNull.map fun o => put (o.getD {})).Decodes fun v z =>
      ∃ x : Service, (x.get f).Of v ∧ z = f.copy x y :=
  decodes_field (decodes_orNull decodes_labels (fun _ => not_isLabels_null) {} put) hof hput
    fun _ a _ => hpart a

theorem Field.decodes (f : Field) (y : Service) :
    (f.reader y).Decodes fun v z => ∃ x : Service, (x.get f).Of v ∧ z = f.copy x y := by
  cases f with
  | id =>
    exact decodes_text_field (fun a => { y with id := a }) Service.id (fun _ _ => .rfl)
      (fun _ => rfl) fun _ => rfl
  | node =>
    exact decodes_text_field (fun a => { y with node := a }) Service.node (fun _ _ => .rfl)
      (fun _ => rfl) fun _ => rfl
  | address =>
    exact decodes_text_field (fun a => { y with address := a }) Service.address (fun _ _ => .rfl)
      (fun _ => rfl) fun _ => rfl
  | datacenter =>
    exact decodes_text_field (fun a => { y with datacenter := a }) Service.datacenter
      (fun _ _ => .rfl) (fun _ => rfl) fun _ => rfl
  | taggedAddresses =>
    exact decodes_labels_field (fun a => { y with taggedAddresses := a }) Service.taggedAddresses
      (fun _ _ => .rfl) (fun _ => rfl) fun _ => rfl
  | nodeMeta =>
    exact decodes_labels_field (fun a => { y with nodeMeta := a }) Service.nodeMeta
      (fun _ _ => .rfl) (fun _ => rfl) fun _ => rfl
  | serviceId =>
    exact decodes_text_field (fun a => { y with serviceId := a }) Service.serviceId
      (fun _ _ => .rfl) (fun _ => rfl) fun _ => rfl
  | serviceName =>
    exact decodes_text_field (fun a => { y with serviceName := a }) Service.serviceName
      (fun _ _ => .rfl) (fun _ => rfl) fun _ => rfl
  | serviceAddress =>
    exact decodes_text_field (fun a => { y with serviceAddress := a }) Service.serviceAddress
      (fun _ _ => .rfl) (fun _ => rfl) fun _ => rfl
  | serviceTags =>
    exact decodes_field (decodes_orNull Json.decodes_string.array (fun _ => not_isTags_null) []
      fun a => { y with serviceTags := a }) (fun _ _ => .rfl) (fun _ => rfl) fun _ _ _ => rfl
  | serviceMeta =>
    exact decodes_labels_field (fun a => { y with serviceMeta := a }) Service.serviceMeta
      (fun _ _ => .rfl) (fun _ => rfl) fun _ => rfl
  | servicePort =>
    have hport : (65536 : Nat) ≤ Text.wordBound := by decide
    refine decodes_field ((Json.decodes_natural hport).map fun n =>
      ({ y with servicePort := UInt16.ofNat n } : Service))
      (fun v x => ⟨fun h => ⟨h, x.servicePort.toNat_lt⟩, And.left⟩) (fun x => ?_)
      fun v n hn => UInt16.toNat_ofNat_of_lt hn.2
    rw [UInt16.ofNat_toNat]
    rfl

/-! ## Objects -/

/-- A member has the key of a field. -/
def Names (m : List UInt8 × Value) (f : Field) : Prop := Denotes m.1 f.wireKey

/-- The members of an object that is read as an instance: they have keys, no two of them that of one
field. What is not given is at its default. -/
structure OfMembers (ms : List (List UInt8 × Value)) (x : Service) : Prop where
  keys : ∀ m ∈ ms, ∃ key, Denotes m.1 key
  once : ms.Pairwise fun m n => ∀ f, Names m f → ¬Names n f
  given : ∀ m ∈ ms, ∀ f, Names m f → (x.get f).Of m.2
  missing : ∀ f, (∀ m ∈ ms, ¬Names m f) → x.get f = get {} f

/-- The same for the members that come behind those of a draft. -/
structure Continues (d : Draft) (ms : List (List UInt8 × Value)) (x : Service) : Prop where
  keys : ∀ m ∈ ms, ∃ key, Denotes m.1 key
  once : ms.Pairwise fun m n => ∀ f, Names m f → ¬Names n f
  fresh : ∀ m ∈ ms, ∀ f, Names m f → f ∉ d.seen
  given : ∀ m ∈ ms, ∀ f, Names m f → (x.get f).Of m.2
  missing : ∀ f, (∀ m ∈ ms, ¬Names m f) → x.get f = d.service.get f

theorem continues_default_iff : Continues {} ms x ↔ OfMembers ms x :=
  ⟨fun h => ⟨h.keys, h.once, h.given, h.missing⟩,
    fun h => ⟨h.keys, h.once, fun _ _ _ _ => List.not_mem_nil, h.given, h.missing⟩⟩

theorem Field.ofWireKey?_eq_some_iff {key : String} :
    Field.ofWireKey? key = some f ↔ key = f.wireKey := by
  constructor
  · intro h
    have hf := List.find?_some h
    exact (eq_of_beq hf).symm
  · rintro rfl
    exact Field.ofWireKey?_wireKey f

theorem Field.wireKey_injective {f g : Field} (h : f.wireKey = g.wireKey) : f = g := by
  have hf := Field.ofWireKey?_eq_some_iff.2 h
  rw [Field.ofWireKey?_wireKey] at hf
  exact Option.some.inj hf

/-- What the value under a key does to a draft. -/
inductive Draft.Takes (d : Draft) (key : String) (v : Value) : Draft → Prop where
  | unknown : (∀ f : Field, key ≠ f.wireKey) → Draft.Takes d key v d
  | field {f : Field} {x : Service} : key = f.wireKey → f ∉ d.seen → (x.get f).Of v →
      Draft.Takes d key v ⟨f.copy x d.service, f :: d.seen⟩

theorem decodesMembers_draft : DecodesMembers Draft.member Draft.Takes where
  decodes {d key reader} h := by
    unfold Draft.member at h
    split at h
    · next hkey =>
      cases h
      have hunknown (f : Field) : key ≠ f.wireKey := fun hf => by
        rw [Field.ofWireKey?_eq_some_iff.2 hf] at hkey
        cases hkey
      refine (Json.decodes_ignored.map fun _ => d).congr fun v d' => ?_
      constructor
      · rintro ⟨-, -, rfl⟩
        exact .unknown hunknown
      · rintro (_ | ⟨hf, -, -⟩)
        · exact ⟨(), trivial, rfl⟩
        · exact absurd hf (hunknown _)
    · next f hkey =>
      have hkey := Field.ofWireKey?_eq_some_iff.1 hkey
      split at h
      · cases h
      next hfresh =>
      cases h
      refine ((f.decodes d.service).map _).congr fun v d' => ?_
      constructor
      · rintro ⟨_, ⟨x, hx, rfl⟩, rfl⟩
        exact .field hkey hfresh hx
      · rintro (hunknown | ⟨hg, -, hx⟩)
        · exact absurd hkey (hunknown f)
        · obtain rfl := Field.wireKey_injective (hkey.symm.trans hg)
          exact ⟨_, ⟨_, hx, rfl⟩, rfl⟩
  exists_reader {d d' key v} h := by
    unfold Draft.member
    cases h with
    | unknown hunknown =>
      split
      · exact ⟨_, rfl⟩
      · next hf => exact absurd (Field.ofWireKey?_eq_some_iff.1 hf) (hunknown _)
    | @field f x hkey hfresh _ =>
      rw [Field.ofWireKey?_eq_some_iff.2 hkey]
      exact ⟨_, if_neg hfresh⟩

theorem eq_of_denotes {c : List UInt8} {key key' : String} (h : Denotes c key)
    (h' : Denotes c key') : key = key' := by
  have hread : Json.stringBody (c ++ Json.quote :: []) = .ok (key, []) :=
    Json.stringBody_eq_ok_iff.2 ⟨c, h, rfl⟩
  rw [Json.stringBody_eq_ok_iff.2 ⟨c, h', rfl⟩] at hread
  cases hread
  rfl

theorem continues_nil_iff : Continues d [] x ↔ d.service = x := by
  constructor
  · intro h
    exact ext_get fun f => (h.missing f (by simp)).symm
  · rintro rfl
    exact ⟨by simp, .nil, by simp, by simp, fun _ _ => rfl⟩

theorem Names.eq (h : Names m f) (h' : Names m g) : f = g :=
  Field.wireKey_injective (eq_of_denotes h h')

/-- A member of a field comes first: the field is settled, and no other member may give it. -/
theorem continues_cons_of_names (hf : Names m f) : Continues d (m :: ms) x ↔
    f ∉ d.seen ∧ ∃ y : Service, (y.get f).Of m.2 ∧
      Continues ⟨f.copy y d.service, f :: d.seen⟩ ms x := by
  constructor
  · intro h
    obtain ⟨honce, hrest⟩ := List.pairwise_cons.1 h.once
    refine ⟨h.fresh m List.mem_cons_self f hf, x, h.given m List.mem_cons_self f hf, ?_⟩
    refine ⟨fun n hn => h.keys n (List.mem_cons_of_mem m hn), hrest, fun n hn g hg => ?_,
      fun n hn => h.given n (List.mem_cons_of_mem m hn), fun g hg => ?_⟩
    · refine List.not_mem_cons_of_ne_of_not_mem ?_ (h.fresh n (List.mem_cons_of_mem m hn) g hg)
      rintro rfl
      exact honce n hn g hf hg
    · rw [get_copy]
      split
      · next hgf => rw [hgf]
      · next hgf =>
        refine h.missing g (List.forall_mem_cons.2 ⟨fun hm => hgf ?_, hg⟩)
        exact hm.eq hf
  · rintro ⟨hfresh, y, hgiven, h⟩
    have hother : ∀ n ∈ ms, ¬Names n f := fun n hn hnf => h.fresh n hn f hnf List.mem_cons_self
    have hget : x.get f = y.get f := by rw [h.missing f hother, get_copy, if_pos rfl]
    refine ⟨List.forall_mem_cons.2 ⟨⟨_, hf⟩, h.keys⟩,
      List.pairwise_cons.2 ⟨fun n hn g hg => ?_, h.once⟩,
      List.forall_mem_cons.2 ⟨fun g hg => ?_, fun n hn g hg => ?_⟩,
      List.forall_mem_cons.2 ⟨fun g hg => ?_, h.given⟩, fun g hg => ?_⟩
    · exact hg.eq hf ▸ hother n hn
    · exact hg.eq hf ▸ hfresh
    · exact fun hseen => h.fresh n hn g hg (List.mem_cons_of_mem f hseen)
    · rw [hg.eq hf, hget]
      exact hgiven
    · obtain ⟨hm, hrest⟩ := List.forall_mem_cons.1 hg
      have hgf : g ≠ f := by
        rintro rfl
        exact hm hf
      rw [h.missing g hrest, get_copy, if_neg hgf]

/-- A member of no field comes first. -/
theorem continues_cons_of_not_names (hkey : ∃ key, Denotes m.1 key) (hm : ∀ f, ¬Names m f) :
    Continues d (m :: ms) x ↔ Continues d ms x := by
  constructor
  · intro h
    exact ⟨fun n hn => h.keys n (List.mem_cons_of_mem m hn), (List.pairwise_cons.1 h.once).2,
      fun n hn => h.fresh n (List.mem_cons_of_mem m hn),
      fun n hn => h.given n (List.mem_cons_of_mem m hn),
      fun f hf => h.missing f (List.forall_mem_cons.2 ⟨hm f, hf⟩)⟩
  · intro h
    exact ⟨List.forall_mem_cons.2 ⟨hkey, h.keys⟩,
      List.pairwise_cons.2 ⟨fun n _ f hf => absurd hf (hm f), h.once⟩,
      List.forall_mem_cons.2 ⟨fun f hf => absurd hf (hm f), h.fresh⟩,
      List.forall_mem_cons.2 ⟨fun f hf => absurd hf (hm f), h.given⟩,
      fun f hf => h.missing f (List.forall_mem_cons.1 hf).2⟩

/-- Members lead to an instance exactly if they continue the draft to it. -/
theorem leads_iff_continues : (∃ d', Leads Draft.Takes d ms d' ∧ d'.service = x) ↔
    Continues d ms x := by
  induction ms generalizing d with
  | nil =>
    rw [continues_nil_iff]
    constructor
    · rintro ⟨d', h, rfl⟩
      cases h
      rfl
    · exact fun h => ⟨d, .nil d, h⟩
  | cons m ms ih =>
    obtain ⟨c, v⟩ := m
    constructor
    · rintro ⟨d', h, hx⟩
      cases h with
      | @cons _ mid _ _ key _ _ hkey htakes hrest =>
        have hmid := ih.1 ⟨d', hrest, hx⟩
        cases htakes with
        | unknown hunknown =>
          have hnot (f : Field) : ¬Names (c, v) f := fun hf =>
            hunknown f (eq_of_denotes hkey hf)
          exact (continues_cons_of_not_names ⟨key, hkey⟩ hnot).2 hmid
        | @field f y hf hfresh hy =>
          subst hf
          exact (continues_cons_of_names (m := (c, v)) hkey).2 ⟨hfresh, y, hy, hmid⟩
    · intro h
      obtain ⟨key, hkey⟩ := h.keys (c, v) List.mem_cons_self
      by_cases hf : ∃ f : Field, key = f.wireKey
      · obtain ⟨f, rfl⟩ := hf
        obtain ⟨hfresh, y, hy, hrest⟩ := (continues_cons_of_names (m := (c, v)) hkey).1 h
        obtain ⟨d', hleads, hx⟩ := ih.2 hrest
        exact ⟨d', .cons hkey (.field rfl hfresh hy) hleads, hx⟩
      · have hnot (f : Field) : ¬Names (c, v) f := fun hnames =>
          hf ⟨f, eq_of_denotes hkey hnames⟩
        obtain ⟨d', hleads, hx⟩ := ih.2 ((continues_cons_of_not_names ⟨key, hkey⟩ hnot).1 h)
        exact ⟨d', .cons hkey (.unknown fun f h => hf ⟨f, h⟩) hleads, hx⟩

theorem decodes_objectReader :
    objectReader.Decodes fun v x => ∃ ms, v = .object ms ∧ OfMembers ms x := by
  refine ((Json.decodes_object decodesMembers_draft {}).map Draft.service).congr fun v x => ?_
  constructor
  · rintro ⟨d, ⟨ms, rfl, hleads⟩, rfl⟩
    exact ⟨ms, rfl, continues_default_iff.1 (leads_iff_continues.1 ⟨d, hleads, rfl⟩)⟩
  · rintro ⟨ms, rfl, h⟩
    obtain ⟨d, hleads, rfl⟩ := leads_iff_continues.2 (continues_default_iff.2 h)
    exact ⟨d, ⟨ms, rfl, hleads⟩, rfl⟩

/-! ## Arrays -/

/-- The elements of an array that is read as an instance, field by field in their order. What is not
given is at its default. -/
structure OfElements (vs : List Value) (x : Service) : Prop where
  short : vs.length ≤ Field.all.length
  given : ∀ p ∈ Field.all.zip vs, (x.get p.1).Of p.2
  missing : ∀ f ∉ Field.all.take vs.length, x.get f = get {} f

/-- Elements give the fields that come next, one after another. -/
inductive Fills : Service → List Field → List Value → Service → Prop where
  | nil (y : Service) (fs : List Field) : Fills y fs [] y
  | cons {x y z : Service} {f : Field} {fs : List Field} {v : Value} {vs : List Value} :
      (x.get f).Of v → Fills (f.copy x y) fs vs z → Fills y (f :: fs) (v :: vs) z

theorem fills_iff (hfs : fs.Nodup) : Fills y fs vs x ↔ vs.length ≤ fs.length ∧
    (∀ p ∈ fs.zip vs, (x.get p.1).Of p.2) ∧ ∀ f ∉ fs.take vs.length, x.get f = y.get f := by
  induction vs generalizing fs y with
  | nil =>
    constructor
    · intro h
      cases h
      simp
    · rintro ⟨-, -, h⟩
      rw [ext_get fun f => h f (by simp)]
      exact .nil y fs
  | cons v vs ih =>
    cases fs with
    | nil =>
      constructor
      · intro h
        cases h
      · rintro ⟨h, -⟩
        cases h
    | cons f fs =>
      obtain ⟨hf, hfs⟩ := List.nodup_cons.1 hfs
      simp only [List.length_cons, Nat.add_le_add_iff_right, List.zip_cons_cons,
        List.forall_mem_cons, List.take_succ_cons]
      simp only [List.mem_cons, not_or]
      constructor
      · intro h
        cases h with
        | @cons x' _ _ _ _ _ _ hgiven hrest =>
          obtain ⟨hlength, hrest, hmissing⟩ := (ih hfs).1 hrest
          have hget : x.get f = x'.get f := by
            rw [hmissing f fun h => hf (List.mem_of_mem_take h), get_copy, if_pos rfl]
          refine ⟨hlength, ⟨hget ▸ hgiven, hrest⟩, fun g hg => ?_⟩
          rw [hmissing g hg.2, get_copy, if_neg hg.1]
      · rintro ⟨hlength, ⟨hgiven, hrest⟩, hmissing⟩
        refine .cons hgiven ((ih hfs).2 ⟨hlength, hrest, fun g hg => ?_⟩)
        rw [get_copy]
        split
        · next hgf => rw [hgf]
        · next hgf => exact hmissing g ⟨hgf, hg⟩

theorem fills_default_iff : Fills {} Field.all vs x ↔ OfElements vs x := by
  rw [fills_iff (by decide)]
  exact ⟨fun ⟨hshort, hgiven, hmissing⟩ => ⟨hshort, hgiven, hmissing⟩,
    fun h => ⟨h.short, h.given, h.missing⟩⟩

theorem afterLast_stop_iff :
    afterLast s = .ok (.stop r) ↔ Json.skipBlank s = Json.closeBracket :: r := by
  constructor
  · intro h
    unfold afterLast at h
    split at h
    · cases h
    next hs =>
    split at h
    · next hb =>
      cases h
      rw [hs, hb]
    · cases h
  · intro hs
    simp only [afterLast, hs, if_true]

theorem afterLast_ne_next : afterLast s ≠ .ok (.next r) := by
  intro h
  unfold afterLast at h
  split at h
  · cases h
  split at h <;> cases h

/-- What comes behind an element, when these fields are still to come. -/
def afterField (fs : List Field) (s : List UInt8) : Except Json.Fault Reader.Turn :=
  if fs.isEmpty then afterLast s else Reader.afterElement s

theorem afterField_stop_iff :
    afterField fs s = .ok (.stop r) ↔ Json.skipBlank s = Json.closeBracket :: r := by
  unfold afterField
  split
  · exact afterLast_stop_iff
  · exact Json.afterElement_stop_iff

/-- What is read from a turn between elements. -/
def Reads (y : Service) (fs : List Field) (x : Service) (r : List UInt8) : Reader.Turn → Prop
  | .stop s => s = r ∧ y = x
  | .next s => ∃ v vs t, Spells (.value v) s t ∧ Spells (.elements vs) t r ∧ Fills y fs (v :: vs) x

theorem reads_of_readFields {turn : Except Json.Fault Reader.Turn}
    (h : readFields y fs turn = .ok (x, r)) : ∃ next, turn = .ok next ∧ Reads y fs x r next := by
  fun_induction readFields y fs turn with
  | case1 | case3 | case4 => cases h
  | case2 =>
    cases h
    exact ⟨_, rfl, rfl, rfl⟩
  | case5 y f fs s y' t hfield ih =>
    obtain ⟨v, hv, x', hx', rfl⟩ := (f.decodes y).sound hfield
    refine ⟨_, rfl, ?_⟩
    obtain ⟨next, hnext, hreads⟩ := ih h
    cases next with
    | stop u =>
      obtain ⟨rfl, rfl⟩ := hreads
      exact ⟨v, [], t, hv, .noElement (afterField_stop_iff.1 hnext), .cons hx' (.nil _ fs)⟩
    | next u =>
      obtain ⟨w, ws, q, hw, hws, hfills⟩ := hreads
      split at hnext
      · exact absurd hnext afterLast_ne_next
      obtain ⟨p, ht, rfl, -⟩ := Json.afterElement_next_iff.1 hnext
      exact ⟨v, w :: ws, t, hv, .element ht (Json.spells_skipBlank_iff.1 hw) hws, .cons hx' hfills⟩

theorem readFields_of_fills (hv : Spells (.value v) s t) (hvs : Spells (.elements vs) t r)
    (h : Fills y fs (v :: vs) x) : readFields y fs (.ok (.next s)) = .ok (x, r) := by
  induction vs generalizing v y fs s t with
  | nil =>
    cases h with
    | @cons x' _ _ f fs _ _ hx' hrest =>
      have hfield := (f.decodes y).complete hv ⟨x', hx', rfl⟩ hvs.ends_elements
      cases hrest
      cases hvs with
      | noElement ht =>
        have hturn : (if fs.isEmpty then afterLast t else Reader.afterElement t) = .ok (.stop r) :=
          afterField_stop_iff.2 ht
        simp only [readFields, hfield, hturn]
  | cons w ws ih =>
    cases h with
    | @cons x' _ _ f fs _ _ hx' hrest =>
      have hfield := (f.decodes y).complete hv ⟨x', hx', rfl⟩ hvs.ends_elements
      cases hvs with
      | @element _ _ _ p _ _ ht hw hws =>
        have hturn : (if fs.isEmpty then afterLast t else Reader.afterElement t) =
            .ok (.next (Json.skipBlank p)) := by
          obtain ⟨b, q, hp, hb⟩ := hw.exists_cons
          cases hrest
          exact Json.afterElement_next_iff.2 ⟨p, ht, rfl, b, q, hp, hb⟩
        simp only [readFields, hfield, hturn]
        exact ih (Json.spells_skipBlank_iff.2 hw) hws hrest

theorem decodes_arrayReader :
    arrayReader.Decodes fun v x => ∃ vs, v = .array vs ∧ OfElements vs x where
  sound {s r x} hrun := by
    obtain ⟨t, hs, hrun⟩ := Json.behind_eq_ok_iff.1 hrun
    obtain ⟨next, hnext, hreads⟩ := reads_of_readFields hrun
    cases next with
    | stop u =>
      obtain ⟨rfl, rfl⟩ := hreads
      exact ⟨.array [], .emptyArray hs (Json.beforeElements_stop_iff.1 hnext), [], rfl,
        fills_default_iff.1 (.nil {} Field.all)⟩
    | next u =>
      obtain ⟨v, vs, q, hv, hvs, hfills⟩ := hreads
      obtain ⟨rfl, -⟩ := Json.beforeElements_next_iff.1 hnext
      exact ⟨.array (v :: vs), .array hs (Json.spells_skipBlank_iff.1 hv) hvs, v :: vs, rfl,
        fills_default_iff.1 hfills⟩
  complete {s r v x} hv his _ := by
    obtain ⟨vs, rfl, h⟩ := his
    have hfills := fills_default_iff.2 h
    refine Json.behind_eq_ok_iff.2 ?_
    cases hv with
    | scalar hv _ => cases hv
    | emptyArray hs ht =>
      cases hfills
      refine ⟨_, hs, ?_⟩
      rw [Json.beforeElements_stop_iff.2 ht]
      rfl
    | array hs hv hvs =>
      obtain ⟨b, u, ht, hb⟩ := hv.exists_cons
      refine ⟨_, hs, ?_⟩
      rw [Json.beforeElements_next_iff.2 ⟨rfl, b, u, ht, hb⟩]
      exact readFields_of_fills (Json.spells_skipBlank_iff.2 hv) hvs hfills

/-! ## Instances -/

/-- The values that are read as an instance. -/
inductive IsService : Value → Service → Prop where
  | object {ms : List (List UInt8 × Value)} {x : Service} : OfMembers ms x →
      IsService (.object ms) x
  | array {vs : List Value} {x : Service} : OfElements vs x → IsService (.array vs) x

theorem decodes_reader : reader.Decodes IsService where
  sound {s r x} hrun := by
    simp only [reader] at hrun
    split at hrun
    · obtain ⟨v, hv, vs, rfl, h⟩ := decodes_arrayReader.sound hrun
      exact ⟨_, hv, .array h⟩
    · obtain ⟨v, hv, ms, rfl, h⟩ := decodes_objectReader.sound hrun
      exact ⟨_, hv, .object h⟩
  complete {s r v x} hv his hr := by
    simp only [reader]
    cases his with
    | array h =>
      split
      · exact decodes_arrayReader.complete hv ⟨_, rfl, h⟩ hr
      · next hne =>
        cases hv with
        | scalar hv _ => cases hv
        | emptyArray hs _ | array hs _ _ => exact absurd hs (hne _)
    | object h =>
      split
      · next hs' => cases hv.kind_of_cons hs'
      · exact decodes_objectReader.complete hv ⟨_, rfl, h⟩ hr

/-- The text of one instance. -/
theorem ofJson_eq_ok_iff : ofJson s = .ok x ↔ ∃ v, Document v s ∧ IsService v x :=
  decodes_reader.whole_eq_ok_iff

/-- The values that are read as a list of instances. -/
def IsServices (v : Value) (xs : List Service) : Prop :=
  v = .null ∧ xs = [] ∨ ∃ vs, v = .array vs ∧ List.Forall₂ IsService vs xs

/-- The text of a list of instances. -/
theorem listOfJson_eq_ok_iff {xs : List Service} :
    listOfJson s = .ok xs ↔ ∃ v, Document v s ∧ IsServices v xs := by
  have hdecodes := decodes_reader.array.orNull fun xs ⟨_, h, _⟩ => nomatch h
  rw [listOfJson, Json.map_eq_ok_iff]
  constructor
  · rintro ⟨o, hread, rfl⟩
    obtain ⟨v, hv, ⟨rfl, rfl⟩ | ⟨xs, his, rfl⟩⟩ := hdecodes.whole_eq_ok_iff.1 hread
    · exact ⟨.null, hv, .inl ⟨rfl, rfl⟩⟩
    · exact ⟨v, hv, .inr his⟩
  · rintro ⟨v, hv, ⟨rfl, rfl⟩ | his⟩
    · exact ⟨none, hdecodes.whole_eq_ok_iff.2 ⟨.null, hv, .inl ⟨rfl, rfl⟩⟩, rfl⟩
    · exact ⟨some xs, hdecodes.whole_eq_ok_iff.2 ⟨v, hv, .inr ⟨xs, his, rfl⟩⟩, rfl⟩

end Discovery.Service
