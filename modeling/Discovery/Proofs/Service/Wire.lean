import Discovery.CommandLine
import Discovery.Proofs.Json.Values
import Discovery.Proofs.Service.Same

/-!
# Results are read back

What the program prints of a result is read back to that result, every field of every instance and
the entries of labels in their order, when a server sends it as the body of a response
(`found_of_printed`). The members of an instance are read one after another; the instance read so
far has the fields that came and the others at their default.
-/

namespace Discovery

open Json (Reads Chain Layout Begins)

variable {l : Layout} {depth : Nat}

/-! ## Labels -/

namespace Labels

variable {key value : String} {es : List (String × String)}

theorem put_of_notMem (h : key ∉ es.map Prod.fst) : put key value es = es ++ [(key, value)] := by
  induction es with
  | nil => rfl
  | cons e es ih =>
    obtain ⟨k, v⟩ := e
    rw [List.map_cons, List.mem_cons, not_or] at h
    rw [put, if_neg (Ne.symm h.1), ih h.2]
    rfl

end Labels

namespace Service

/-- How the value under a key of labels is read. -/
def labelMember (labels : Labels) (key : String) : Except Json.Fault (Json.Reader Labels) :=
  .ok (Json.Reader.string.map fun v => labels.insert key v)

theorem chain_labels (front : Labels) {all : Labels} {es : List (String × String)}
    (h : front.entries ++ es = all.entries) :
    Chain labelMember front (es.map fun e => (e.1, Json.string e.2)) all := by
  induction es generalizing front with
  | nil =>
    rw [List.append_nil] at h
    rw [Labels.ext_entries h]
    exact .nil all
  | cons e es ih =>
    have hkey : e.1 ∉ front.entries.map Prod.fst := by
      have hnodup := all.nodup
      rw [← h, List.map_append, List.nodup_append] at hnodup
      exact fun hmem => hnodup.2.2 e.1 hmem e.1 List.mem_cons_self rfl
    have hinsert : (front.insert e.1 e.2).entries = front.entries ++ [e] :=
      Labels.put_of_notMem hkey
    refine .cons rfl ((Json.reads_string e.2).map _) (ih _ ?_)
    rw [hinsert, List.append_assoc]
    exact h

theorem reads_labels (l : Layout) (depth : Nat) (labels : Labels) :
    Reads labelsReader (labelsJson l depth labels) labels :=
  Json.reads_object (chain_labels {} rfl)

/-! ## Instances -/

/-- An instance with one field of another. -/
def Field.copy (s t : Service) : Field → Service
  | .id => { t with id := s.id }
  | .node => { t with node := s.node }
  | .address => { t with address := s.address }
  | .datacenter => { t with datacenter := s.datacenter }
  | .taggedAddresses => { t with taggedAddresses := s.taggedAddresses }
  | .nodeMeta => { t with nodeMeta := s.nodeMeta }
  | .serviceId => { t with serviceId := s.serviceId }
  | .serviceName => { t with serviceName := s.serviceName }
  | .serviceAddress => { t with serviceAddress := s.serviceAddress }
  | .serviceTags => { t with serviceTags := s.serviceTags }
  | .serviceMeta => { t with serviceMeta := s.serviceMeta }
  | .servicePort => { t with servicePort := s.servicePort }

/-- All fields together make up the instance. -/
theorem foldl_copy (s : Service) : Field.all.foldl (fun t f => f.copy s t) {} = s := by
  simp only [Field.all, List.foldl_cons, List.foldl_nil, Field.copy]

theorem reads_labels_orNull (l : Layout) (depth : Nat) (labels : Labels) :
    Reads labelsReader.orNull (labelsJson l depth labels) (some labels) := by
  have hbegins : Begins Json.openBrace (labelsJson l depth labels) :=
    Json.begins_bracketed (by rfl) _
  exact (reads_labels l depth labels).orNull hbegins (by decide) (by decide)

theorem reads_tags (l : Layout) (depth : Nat) (tags : List String) :
    Reads (Json.Reader.array Json.Reader.string).orNull (l.array depth (tags.map Json.string))
      (some tags) := by
  have hread : Reads (Json.Reader.array Json.Reader.string)
      (l.array depth (tags.map Json.string)) tags :=
    Json.reads_array (b := Json.quote) (by decide) (by decide) fun t _ =>
      ⟨Json.begins_string t, Json.reads_string t⟩
  have hbegins : Begins Json.openBracket (l.array depth (tags.map Json.string)) :=
    Json.begins_bracketed (by rfl) _
  exact hread.orNull hbegins (by decide) (by decide)

/-- Each field is read from its writing, and nothing else of the instance changes. -/
theorem Field.reads (f : Field) (s t : Service) :
    Reads (f.reader t) (f.json l depth s) (f.copy s t) := by
  cases f <;> simp only [Field.reader, Field.json, Field.copy]
  case id => exact (Json.reads_string s.id).map _
  case node => exact (Json.reads_string s.node).map _
  case address => exact (Json.reads_string s.address).map _
  case datacenter => exact (Json.reads_string s.datacenter).map _
  case taggedAddresses => exact (reads_labels_orNull l depth s.taggedAddresses).map _
  case nodeMeta => exact (reads_labels_orNull l depth s.nodeMeta).map _
  case serviceId => exact (Json.reads_string s.serviceId).map _
  case serviceName => exact (Json.reads_string s.serviceName).map _
  case serviceAddress => exact (Json.reads_string s.serviceAddress).map _
  case serviceTags => exact (reads_tags l depth s.serviceTags).map _
  case serviceMeta => exact (reads_labels_orNull l depth s.serviceMeta).map _
  case servicePort =>
    have hport : s.servicePort.toNat < 65536 := s.servicePort.toNat_lt
    have hread := (Json.reads_natural hport (Nat.lt_trans hport (by decide))).map
      fun n => ({ t with servicePort := UInt16.ofNat n } : Service)
    rwa [UInt16.ofNat_toNat] at hread

/-- The members of an instance are read field by field, none of them twice. -/
theorem chain_fields (l : Layout) (depth : Nat) (s : Service) {fs : List Field} (hfs : fs.Nodup)
    {d : Draft} (hfresh : ∀ f ∈ fs, f ∉ d.seen) :
    Chain Draft.member d (fs.map fun f => (f.wireKey, f.json l depth s))
      ⟨fs.foldl (fun t f => f.copy s t) d.service, fs.reverse ++ d.seen⟩ := by
  induction fs generalizing d with
  | nil => exact .nil d
  | cons f fs ih =>
    obtain ⟨hf, hfs⟩ := List.nodup_cons.1 hfs
    have hmember : d.member f.wireKey =
        .ok ((f.reader d.service).map fun t => { service := t, seen := f :: d.seen }) := by
      rw [Draft.member, Field.ofWireKey?_wireKey]
      exact if_neg (hfresh f List.mem_cons_self)
    -- a key that has been seen is refused, so the fields still to come must stay unseen
    have hrest : ∀ g ∈ fs, g ∉ f :: d.seen := by
      intro g hg
      refine List.not_mem_cons_of_ne_of_not_mem ?_ (hfresh g (List.mem_cons_of_mem f hg))
      rintro rfl
      exact hf hg
    have hchain := ih hfs (d := ⟨f.copy s d.service, f :: d.seen⟩) hrest
    rw [List.reverse_cons, List.append_assoc]
    exact .cons hmember ((f.reads s d.service).map _) hchain

theorem begins_json (key : Field → String) (l : Layout) (depth : Nat) (s : Service) :
    Begins Json.openBrace (json key l depth s) := by
  unfold json Layout.object
  exact Json.begins_bracketed (by rfl) _

theorem reads_json (l : Layout) (depth : Nat) (s : Service) :
    Reads reader (json Field.wireKey l depth s) s := by
  intro t r ht hr
  have hfields : Field.all.Nodup := by decide
  have hchain := chain_fields l (depth + 1) s hfields (d := {}) fun f _ => List.not_mem_nil
  rw [foldl_copy] at hchain
  have hread : Reads objectReader (json Field.wireKey l depth s) s :=
    (Json.reads_object hchain).map Draft.service
  obtain ⟨bs, hbs⟩ := begins_json Field.wireKey l depth s
  have hskip : Json.skipBlank t = Json.openBrace :: (bs ++ r) := by
    rw [ht, hbs]
    exact Json.skipBlank_cons (by decide) _
  simp only [reader, hskip]
  exact hread ht hr

theorem reads_listJson (l : Layout) (xs : List Service) :
    Reads (Json.Reader.array reader).orNull (listJson Field.wireKey l xs) (some xs) := by
  have hread : Reads (Json.Reader.array reader) (listJson Field.wireKey l xs) xs :=
    Json.reads_array (b := Json.openBrace) (by decide) (by decide) fun s _ =>
      ⟨begins_json Field.wireKey l 1 s, reads_json l 1 s⟩
  have hbegins : Begins Json.openBracket (listJson Field.wireKey l xs) :=
    Json.begins_bracketed (by rfl) _
  exact hread.orNull hbegins (by decide) (by decide)

/-- A list of instances is read back from its writing, with blanks behind it. -/
theorem listOfJson_wireText (l : Layout) (xs : List Service) (blanks : String)
    (hblanks : (Text.utf8 blanks).all Json.isBlank = true) :
    listOfJson (Text.utf8 (wireText l xs ++ blanks)) = .ok xs := by
  have hbytes : Text.utf8 (wireText l xs ++ blanks) =
      Json.bytes (listJson Field.wireKey l xs) ++ Text.utf8 blanks := by
    rw [Json.utf8_eq_bytes, String.toList_append, Json.bytes_append, wireText,
      String.toList_ofList]
    rfl
  rw [listOfJson, hbytes, (reads_listJson l xs).whole (List.all_eq_true.1 hblanks)]
  rfl

end Service

/-! ## Responses -/

open Service (wireText)

/-- **A result is read back from what is printed of it.** Whatever the instances are, the text that
the program prints of them, and each of their writings, is a body from which a response of success
tells the same instances: in the same order, with every field and the entries of labels as they
were. -/
theorem found_of_printed [Tables] (found : Lookup.Found) {response : Http.Response}
    (hsuccess : response.isSuccess = true) {text : String}
    (htext : text ∈ [(CommandLine.conclude (.ok found)).output, wireText .indented found.services,
      wireText .compact found.services])
    (hbody : response.body = some (Text.utf8 text)) :
    response.found = .ok {
      services := found.services, status := Http.status response.headers } := by
  have hread : Service.listOfJson (Text.utf8 text) = .ok found.services := by
    have hplain (l : Layout) : Service.listOfJson (Text.utf8 (wireText l found.services)) =
        .ok found.services := by
      have h := Service.listOfJson_wireText l found.services "" (by decide)
      rwa [String.append_empty] at h
    simp only [List.mem_cons, List.not_mem_nil, or_false] at htext
    obtain rfl | rfl | rfl := htext
    · exact Service.listOfJson_wireText .indented found.services "\n" (by decide)
    · exact hplain .indented
    · exact hplain .compact
  simp only [Http.Response.found, hsuccess, if_true, hbody, hread]

/-- Texts that need escapes, repeated tags, an empty key and the last port. -/
theorem found_of_printed_escapes :
    let found : Lookup.Found := {
      services := [{
        node := "a\"b\\\n\x01é"
        taggedAddresses := { entries := [("lan", "::1"), ("", "/")], nodup := by decide }
        serviceTags := ["x", "", "x"]
        servicePort := 65535 }]
      status := {} }
    let response : Http.Response := {
      code := 200, body := some (Text.utf8 (CommandLine.conclude (.ok found)).output) }
    response.isSuccess = true ∧ response.found = .ok found := by
  intro found response
  exact ⟨rfl, found_of_printed found rfl List.mem_cons_self rfl⟩

end Discovery
