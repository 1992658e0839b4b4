import Discovery.Json.Ignored
import Discovery.Service.Basic

/-!
# Reading instances from JSON

An instance is an object whose members may come in any order. Unknown members are skipped, missing
ones are left at their default, and a known member must not come twice. Collections that are empty
may be written `null`. An instance may also be an array of its fields in their order, of which the
last ones may be missing.
-/

namespace Discovery.Service

open Json (Fault Reader)

/-- Labels from an object of strings; of members with one key the last counts. -/
def labelsReader : Reader Labels :=
  Reader.object (fun (l : Labels) key => .ok (Reader.string.map fun v => l.insert key v)) {}

/-- The reader of a field's value, which puts it into an instance. -/
def Field.reader (s : Service) : Field → Reader Service
  | .id => Reader.string.map fun v => { s with id := v }
  | .node => Reader.string.map fun v => { s with node := v }
  | .address => Reader.string.map fun v => { s with address := v }
  | .datacenter => Reader.string.map fun v => { s with datacenter := v }
  | .taggedAddresses => labelsReader.orNull.map fun v => { s with taggedAddresses := v.getD {} }
  | .nodeMeta => labelsReader.orNull.map fun v => { s with nodeMeta := v.getD {} }
  | .serviceId => Reader.string.map fun v => { s with serviceId := v }
  | .serviceName => Reader.string.map fun v => { s with serviceName := v }
  | .serviceAddress => Reader.string.map fun v => { s with serviceAddress := v }
  | .serviceTags => (Reader.array Reader.string).orNull.map fun v => { s with serviceTags := v.getD [] }
  | .serviceMeta => labelsReader.orNull.map fun v => { s with serviceMeta := v.getD {} }
  | .servicePort => (Reader.natural 65536).map fun v => { s with servicePort := UInt16.ofNat v }

/-- An instance as far as it is read, with the fields that came so far. -/
structure Draft where
  /-- The fields read so far, the others at their default. -/
  service : Service := {}
  seen : List Field := []

/-- How the value under a key is read. -/
def Draft.member (d : Draft) (key : String) : Except Fault (Reader Draft) :=
  match Field.ofWireKey? key with
  | none => .ok (Reader.ignored.map fun _ => d)
  | some f =>
    if f ∈ d.seen then .error .mistyped
    else .ok ((f.reader d.service).map fun s => { service := s, seen := f :: d.seen })

/-- Reads the end of an array that is full. -/
def afterLast (s : List UInt8) : Except Fault Reader.Turn :=
  match Json.skipBlank s with
  | [] => .error .ended
  | b :: rest => if b = Json.closeBracket then .ok (.stop rest) else .error .malformed

theorem afterLast_length {s r : List UInt8}
    (h : afterLast s = .ok (.next r) ∨ afterLast s = .ok (.stop r)) : r.length < s.length := by
  have hs := Json.length_skipBlank_le s
  unfold afterLast at h
  split at h
  · rcases h with h | h <;> cases h
  · next e =>
    rw [e] at hs
    simp only [List.length_cons] at hs
    split at h
    · rcases h with h | h <;> cases h
      omega
    · rcases h with h | h <;> cases h

/-- Reads fields in their order, from what stands before or behind an element. -/
def readFields (s : Service) : List Field → Except Fault Reader.Turn →
    Except Fault (Service × List UInt8)
  | _, .error f => .error f
  | _, .ok (.stop r) => .ok (s, r)
  | [], .ok (.next _) => .error .malformed
  | f :: fs, .ok (.next r) =>
    match (f.reader s).run r with
    | .error e => .error e
    | .ok (s, r) => readFields s fs (if fs.isEmpty then afterLast r else Reader.afterElement r)

theorem readFields_length {s t : Service} {fs : List Field} {turn : Except Fault Reader.Turn}
    {r : List UInt8} {n : Nat} (h : readFields s fs turn = .ok (t, r))
    (hn : ∀ u, turn = .ok (.next u) → u.length ≤ n) (hs : ∀ u, turn = .ok (.stop u) → u.length ≤ n) :
    r.length ≤ n := by
  fun_induction readFields s fs turn generalizing n with
  | case1 | case3 | case4 => cases h
  | case2 => cases h; exact hs _ rfl
  | case5 s f fs u s' r' hr ih =>
    have hu := (f.reader s).uses hr
    have := hn _ rfl
    refine ih h (fun v hv => ?_) (fun v hv => ?_) <;> split at hv
    · have := afterLast_length (Or.inl hv); omega
    · have := Reader.afterElement_next hv; omega
    · have := afterLast_length (Or.inr hv); omega
    · have := Reader.afterElement_stop hv; omega

/-- The array form of an instance. -/
def arrayReader : Reader Service :=
  Reader.led Json.openBracket (fun s => readFields {} Field.all (Reader.beforeElements s))
    fun h => readFields_length h (fun _ hu => Reader.beforeElements_next hu)
      (fun _ hu => Nat.le_of_lt (Reader.beforeElements_stop hu))

/-- The object form of an instance. -/
def objectReader : Reader Service := (Reader.object Draft.member {}).map Draft.service

/-- An instance in either form. -/
def reader : Reader Service where
  run s :=
    match Json.skipBlank s with
    | 0x5B :: _ => arrayReader.run s
    | _ => objectReader.run s
  uses h := by
    split at h
    · exact arrayReader.uses h
    · exact objectReader.uses h

/-- Reads the text of one instance. -/
def ofJson (s : List UInt8) : Except Fault Service := reader.whole s

/-- Reads the text of a list of instances; `null` is the empty list. -/
def listOfJson (s : List UInt8) : Except Fault (List Service) :=
  ((Reader.array reader).orNull.whole s).map fun v => v.getD []

end Discovery.Service
