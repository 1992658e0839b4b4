import Mathlib.Data.Option.Basic
import Discovery.Settings

/-!
# Integers of a document

Each integer of a document that was read is within 64 bits, however deep it stands
(`Toml.inRange_of_parse`). So the numbers of settings that were loaded are numbers of seconds that
can be told (`Settings.numbers_lt_of_load`).
-/

namespace Discovery

namespace Toml

variable {v : Value} {es es' : Entries} {s r : List Char}

/-- Every integer in a value is within 64 bits. -/
inductive Value.InRange : Value → Prop where
  | string : InRange (.string text)
  | integer (h : -0x8000000000000000 ≤ n ∧ n < 0x8000000000000000) : InRange (.integer n)
  | float : InRange (.float written)
  | boolean : InRange (.boolean b)
  | moment : InRange (.moment written)
  | array (h : ∀ v ∈ vs, InRange v) : InRange (.array vs)
  | inline (h : ∀ e ∈ entries, InRange e.2) : InRange (.inline entries)
  | table (h : ∀ e ∈ entries, InRange e.2) : InRange (.table origin entries)
  | tables (h : ∀ entries ∈ back, ∀ e ∈ entries, InRange e.2) : InRange (.tables back)

/-- Every integer in a table is within 64 bits. -/
def Entries.InRange (es : Entries) : Prop := ∀ e ∈ es, e.2.InRange

namespace Entries

theorem InRange.nil : InRange [] := fun _ h => nomatch h

theorem InRange.append (hes : InRange es) (hes' : InRange es') : InRange (es ++ es') :=
  fun e he => (List.mem_append.1 he).elim (hes e) (hes' e)

theorem InRange.singleton (key : String) (hv : v.InRange) : InRange [(key, v)] := by
  intro e he
  rwa [List.mem_singleton.1 he]

theorem InRange.lookup {key : String} (hes : InRange es) (h : es.lookup key = some v) :
    v.InRange := by
  obtain ⟨l₁, l₂, hl, -⟩ := List.lookup_eq_some_iff.1 h
  exact hes (key, v) (hl ▸ List.mem_append_right _ List.mem_cons_self)

theorem InRange.replace {key : String} (hes : InRange es) (hv : v.InRange) :
    InRange (Entries.replace key v es) := by
  induction es with
  | nil => exact hes
  | cons e es ih =>
    obtain ⟨k, w⟩ := e
    have htail : InRange es := fun e he => hes e (List.mem_cons_of_mem _ he)
    unfold Entries.replace
    split
    · intro e he
      obtain rfl | he := List.mem_cons.1 he
      · exact hv
      · exact htail e he
    · intro e he
      obtain rfl | he := List.mem_cons.1 he
      · exact hes _ List.mem_cons_self
      · exact ih htail e he

/-- A change at the end of a path keeps integers in range if it does so in the table there. -/
theorem InRange.within {made : Origin} {change : Origin → Entries → Option Entries}
    (hchange : ∀ origin es es', change origin es = some es' → InRange es → InRange es')
    {path : List String} {origin : Origin} (hes : InRange es)
    (h : Entries.within made change path origin es = some es') : InRange es' := by
  induction path generalizing origin es es' with
  | nil => exact hchange origin es es' h hes
  | cons key path ih =>
    unfold Entries.within at h
    split at h
    · obtain ⟨inner, hinner, h⟩ := Option.bind_eq_some_iff.1 h
      cases h
      exact hes.append (.singleton key (.table (ih .nil hinner)))
    · next hlookup =>
      split at h
      · cases h
      · obtain ⟨inner, hinner, h⟩ := Option.bind_eq_some_iff.1 h
        cases h
        cases hes.lookup hlookup with
        | table hold => exact hes.replace (.table (ih hold hinner))
    · next hlookup =>
      obtain ⟨last, hlast, h⟩ := Option.bind_eq_some_iff.1 h
      cases h
      cases hes.lookup hlookup with
      | tables hold =>
        refine hes.replace (.tables fun entries hentries => ?_)
        obtain rfl | hentries := List.mem_cons.1 hentries
        · exact ih (hold _ List.mem_cons_self) hlast
        · exact hold entries (List.mem_cons_of_mem _ hentries)
    · cases h

theorem InRange.add {key : String} (hes : InRange es) (hv : v.InRange)
    (h : Entries.add key v es = some es') : InRange es' := by
  unfold Entries.add at h
  split at h
  · cases h
  · cases h
    exact hes.append (.singleton key hv)

theorem InRange.addPair {path : List String} {key : String} {origin : Origin} (hes : InRange es)
    (hv : v.InRange) (h : Entries.addPair path key v origin es = some es') : InRange es' := by
  refine hes.within (fun reached es es' h hes => ?_) h
  split at h
  · cases h
  · exact hes.add hv h

theorem InRange.open {key : String} (hes : InRange es) (h : Entries.open key es = some es') :
    InRange es' := by
  unfold Entries.open at h
  split at h
  · cases h
    exact hes.append (.singleton key (.table InRange.nil))
  · next hlookup =>
    cases h
    cases hes.lookup hlookup with
    | table hold => exact hes.replace (.table hold)
  · cases h

theorem InRange.openNext {key : String} (hes : InRange es)
    (h : Entries.openNext key es = some es') : InRange es' := by
  have hnil : ∀ e ∈ ([] : Entries), e.2.InRange := InRange.nil
  unfold Entries.openNext at h
  split at h
  · cases h
    exact hes.append (.singleton key (.tables (by simp)))
  · next hlookup =>
    cases h
    cases hes.lookup hlookup with
    | tables hold =>
      refine hes.replace (.tables fun entries hentries => ?_)
      obtain rfl | hentries := List.mem_cons.1 hentries
      · exact hnil
      · exact hold entries hentries
  · cases h

theorem InRange.ofInline {pairs : List (List String × String × Value)}
    (hpairs : ∀ p ∈ pairs, p.2.2.InRange) (h : Entries.ofInline pairs = some es) : InRange es := by
  unfold Entries.ofInline at h
  have hstart : InRange [] := .nil
  generalize ([] : Entries) = es₀ at h hstart
  induction pairs generalizing es₀ with
  | nil =>
    cases h
    exact hstart
  | cons p pairs ih =>
    rw [List.foldlM_cons] at h
    obtain ⟨es₁, hes₁, h⟩ := Option.bind_eq_some_iff.1 h
    exact ih (fun p hp => hpairs p (List.mem_cons_of_mem _ hp)) es₁ h
      (hstart.addPair (hpairs p List.mem_cons_self) hes₁)

end Entries

/-! ## Readers -/

theorem inRange_of_inRange {n : Int} (h : inRange n s = some (v, r)) : v.InRange := by
  unfold inRange at h
  split at h
  · next hn =>
    cases h
    exact .integer hn
  · cases h

theorem inRange_of_integer (h : integer s = some (v, r)) : v.InRange := by
  unfold integer at h
  -- the base makes no difference
  split at h
  all_goals
    obtain ⟨p, -, h⟩ := Option.bind_eq_some_iff.1 h
    exact inRange_of_inRange h

theorem inRange_of_float (h : float s = some (v, r)) : v.InRange := by
  unfold float at h
  split at h
  split at h
  · obtain ⟨t, -, h⟩ := Option.map_eq_some_iff.1 h
    cases h
    exact .float
  · extract_lets finish at h
    have hfinish : ∀ p, finish p = some (v, r) → v.InRange := by
      rintro ⟨places, power, r⟩ h
      simp only [finish] at h
      split at h
      · cases h
      · cases h
        exact .float
    split at h
    · exact hfinish ([], _, _) h
    · obtain ⟨⟨places, r⟩, -, h⟩ := Option.bind_eq_some_iff.1 h
      simp only at h
      split at h
      · exact hfinish (places, _, _) h
      · exact hfinish (places, _, _) h

theorem inRange_of_moment (h : moment s = some (v, r)) : v.InRange := by
  obtain ⟨t, -, h⟩ := Option.map_eq_some_iff.1 h
  cases h
  exact .moment

section
variable {read : List Char → Option (Value × List Char)} {fuel : Nat}

theorem inRange_of_items (hread : ∀ s v r, read s = some (v, r) → v.InRange) {vs : List Value}
    (h : items read fuel s = some (vs, r)) : ∀ v ∈ vs, v.InRange := by
  induction fuel generalizing s vs r with
  | zero => cases h
  | succ fuel ih =>
    unfold items at h
    split at h
    · cases h
      exact fun v hv => absurd hv List.not_mem_nil
    · obtain ⟨⟨w, t⟩, hw, h⟩ := Option.bind_eq_some_iff.1 h
      have hw : w.InRange := hread _ _ _ hw
      simp only at h
      split at h
      · cases h
        simpa using hw
      · obtain ⟨⟨ws, t⟩, hws, h⟩ := Option.bind_eq_some_iff.1 h
        cases h
        exact List.forall_mem_cons.2 ⟨hw, ih hws⟩
      · cases h

theorem inRange_of_inlinePairs (hread : ∀ s v r, read s = some (v, r) → v.InRange)
    {ps : List (List String × String × Value)} (h : inlinePairs read fuel s = some (ps, r)) :
    ∀ p ∈ ps, p.2.2.InRange := by
  induction fuel generalizing s ps r with
  | zero => cases h
  | succ fuel ih =>
    unfold inlinePairs at h
    obtain ⟨⟨path, last, t⟩, -, h⟩ := Option.bind_eq_some_iff.1 h
    obtain ⟨t, -, h⟩ := Option.bind_eq_some_iff.1 h
    obtain ⟨⟨w, t⟩, hw, h⟩ := Option.bind_eq_some_iff.1 h
    have hw : w.InRange := hread _ _ _ hw
    simp only at h
    split at h
    · cases h
      simpa using hw
    · obtain ⟨⟨qs, t⟩, hqs, h⟩ := Option.bind_eq_some_iff.1 h
      cases h
      exact List.forall_mem_cons.2 ⟨hw, ih hqs⟩
    · cases h

end

theorem inRange_of_value {depth : Nat} (h : value depth s = some (v, r)) : v.InRange := by
  induction depth using Nat.strongRecOn generalizing s v r with
  | ind depth ih =>
  unfold value at h
  split at h
  · obtain ⟨p, -, h⟩ := Option.map_eq_some_iff.1 h
    cases h
    exact .string
  · obtain ⟨p, -, h⟩ := Option.map_eq_some_iff.1 h
    cases h
    exact .string
  · cases h
  · cases h
  · next inner _ =>
    obtain ⟨p, hp, h⟩ := Option.map_eq_some_iff.1 h
    cases h
    exact .array (inRange_of_items (fun _ _ _ => ih inner (Nat.lt_succ_self inner)) hp)
  · next inner _ =>
    split at h
    · cases h
      exact .inline Entries.InRange.nil
    · obtain ⟨⟨ps, t⟩, hps, h⟩ := Option.bind_eq_some_iff.1 h
      obtain ⟨es, hes, h⟩ := Option.bind_eq_some_iff.1 h
      cases h
      have hpairs := inRange_of_inlinePairs (fun _ _ _ => ih inner (Nat.lt_succ_self inner)) hps
      exact .inline (Entries.InRange.ofInline hpairs hes)
  · cases h
    exact .boolean
  · cases h
    exact .boolean
  · obtain h | ⟨-, h⟩ := (Option.orElse_eq_some _ _ _).1 h
    · exact inRange_of_moment h
    · obtain h | ⟨-, h⟩ := (Option.orElse_eq_some _ _ _).1 h
      · exact inRange_of_float h
      · exact inRange_of_integer h

/-! ## Documents -/

theorem inRange_of_enter {d d' : Reading} {repeated : Bool} {path : List String} {last : String}
    (hd : Entries.InRange d.root) (h : d.enter repeated path last = some d') :
    Entries.InRange d'.root := by
  obtain ⟨root, hroot, h⟩ := Option.bind_eq_some_iff.1 h
  cases h
  refine hd.within (fun _ es es' h hes => ?_) hroot
  split at h
  · exact hes.openNext h
  · exact hes.open h

theorem inRange_of_add {d d' : Reading} {path : List String} {last : String}
    (hd : Entries.InRange d.root) (hv : v.InRange) (h : d.add path last v = some d') :
    Entries.InRange d'.root := by
  obtain ⟨root, hroot, h⟩ := Option.bind_eq_some_iff.1 h
  cases h
  exact hd.within (fun _ es es' h hes => hes.addPair hv h) hroot

theorem inRange_of_line {d d' : Reading} (hd : Entries.InRange d.root)
    (h : line d s = some (d', r)) : Entries.InRange d'.root := by
  unfold line at h
  split at h
  · obtain ⟨t, -, h⟩ := Option.bind_eq_some_iff.1 h
    cases h
    exact hd
  · obtain ⟨t, -, h⟩ := Option.bind_eq_some_iff.1 h
    cases h
    exact hd
  · obtain ⟨t, -, h⟩ := Option.bind_eq_some_iff.1 h
    cases h
    exact hd
  · obtain ⟨⟨path, last, t⟩, -, h⟩ := Option.bind_eq_some_iff.1 h
    obtain ⟨t, -, h⟩ := Option.bind_eq_some_iff.1 h
    obtain ⟨t, -, h⟩ := Option.bind_eq_some_iff.1 h
    obtain ⟨t, -, h⟩ := Option.bind_eq_some_iff.1 h
    obtain ⟨e, he, h⟩ := Option.bind_eq_some_iff.1 h
    cases h
    exact inRange_of_enter hd he
  · obtain ⟨⟨path, last, t⟩, -, h⟩ := Option.bind_eq_some_iff.1 h
    obtain ⟨t, -, h⟩ := Option.bind_eq_some_iff.1 h
    obtain ⟨t, -, h⟩ := Option.bind_eq_some_iff.1 h
    obtain ⟨e, he, h⟩ := Option.bind_eq_some_iff.1 h
    cases h
    exact inRange_of_enter hd he
  · obtain ⟨⟨path, last, t⟩, -, h⟩ := Option.bind_eq_some_iff.1 h
    obtain ⟨t, -, h⟩ := Option.bind_eq_some_iff.1 h
    obtain ⟨⟨v, t⟩, hv, h⟩ := Option.bind_eq_some_iff.1 h
    obtain ⟨t, -, h⟩ := Option.bind_eq_some_iff.1 h
    obtain ⟨e, he, h⟩ := Option.bind_eq_some_iff.1 h
    cases h
    exact inRange_of_add hd (inRange_of_value hv) he

theorem inRange_of_lines {fuel : Nat} {d : Reading} (hd : Entries.InRange d.root)
    (h : lines fuel d s = some es) : Entries.InRange es := by
  induction fuel generalizing d s with
  | zero => cases h
  | succ fuel ih =>
    unfold lines at h
    split at h
    · cases h
      exact hd
    · obtain ⟨⟨d', t⟩, hd', h⟩ := Option.bind_eq_some_iff.1 h
      exact ih (inRange_of_line hd hd') h

theorem inRange_of_parse {text : String} (h : parse text = some es) : Entries.InRange es :=
  inRange_of_lines Entries.InRange.nil h

end Toml

namespace Settings

open Toml

variable {v : Value} {es : Entries} {names : List String} {name : String}

theorem inRange_of_fields (hv : v.InRange) (h : fields names v = some es) : es.InRange := by
  unfold fields at h
  split at h
  · cases h
    cases hv with
    | table hes => exact hes
  · cases h
    cases hv with
    | inline hes => exact hes
  · cases h
    cases hv with
    | array hvs => exact fun e he => hvs e.2 (List.of_mem_zip he).2
  · next back =>
    cases h
    cases hv with
    | tables hback =>
      intro e he
      obtain ⟨inner, hinner, hinner'⟩ := List.mem_map.1 (List.of_mem_zip he).2
      rw [← hinner']
      exact .table (hback inner (List.mem_reverse.1 hinner))
  · cases h
    exact Entries.InRange.nil
  · cases h

theorem asCount_lt {n : Nat} (hv : v.InRange) (h : asCount v = some n) :
    n < 0x8000000000000000 := by
  unfold asCount at h
  split at h
  · cases h
    cases hv with
    | integer hn => exact Int.ofNat_lt.1 hn.2
  · cases h

/-- What holds of a default and of all that is read from values in range holds of a field. -/
theorem readField_induction {read : Value → Option α} {default : α} {P : α → Prop}
    (hes : es.InRange) (hdefault : P default)
    (hread : ∀ v a, v.InRange → read v = some a → P a) {a : α}
    (h : readField es name read default = some a) : P a := by
  unfold readField at h
  split at h
  · cases h
    exact hdefault
  · next hlookup => exact hread _ a (hes.lookup hlookup) h

theorem headroom_lt_of_readServer {s : ServerSettings} (hv : v.InRange)
    (h : readServer v = some s) : s.headroom < 0x8000000000000000 := by
  obtain ⟨es, hes, h⟩ := Option.bind_eq_some_iff.1 h
  obtain ⟨address, -, h⟩ := Option.bind_eq_some_iff.1 h
  obtain ⟨token, -, h⟩ := Option.bind_eq_some_iff.1 h
  obtain ⟨datacenter, -, h⟩ := Option.bind_eq_some_iff.1 h
  obtain ⟨headroom, hheadroom, h⟩ := Option.bind_eq_some_iff.1 h
  cases h
  exact readField_induction (P := (· < _)) (inRange_of_fields hv hes) (by decide)
    (fun v n => asCount_lt) hheadroom

theorem wait_lt_of_readLookup {s : LookupSettings} (hv : v.InRange)
    (h : readLookup v = some s) : s.wait < 0x8000000000000000 := by
  obtain ⟨es, hes, h⟩ := Option.bind_eq_some_iff.1 h
  obtain ⟨wait, hwait, h⟩ := Option.bind_eq_some_iff.1 h
  obtain ⟨allowStale, -, h⟩ := Option.bind_eq_some_iff.1 h
  cases h
  exact readField_induction (P := (· < _)) (inRange_of_fields hv hes) (by decide)
    (fun v n => asCount_lt) hwait

/-- The numbers of settings that were loaded are within 63 bits. -/
theorem numbers_lt_of_load {path : String} {content : Option (List UInt8)} {s : Settings}
    (h : load path content = .ok s) :
    s.server.headroom < 0x8000000000000000 ∧ s.lookup.wait < 0x8000000000000000 := by
  unfold load at h
  split at h
  · cases h
  · next text _ =>
    split at h
    · cases h
    · next hparse =>
      cases h
      obtain ⟨es, hes, h⟩ := Option.bind_eq_some_iff.1 hparse
      obtain ⟨server, hserver, h⟩ := Option.bind_eq_some_iff.1 h
      obtain ⟨lookup, hlookup, h⟩ := Option.bind_eq_some_iff.1 h
      cases h
      have hrange := inRange_of_parse hes
      exact ⟨readField_induction (P := fun s => s.headroom < _) hrange (by decide)
          (fun v s => headroom_lt_of_readServer) hserver,
        readField_induction (P := fun s => s.wait < _) hrange (by decide)
          (fun v s => wait_lt_of_readLookup) hlookup⟩

end Settings

end Discovery
