/-!
# Labels

Labels are texts under text keys, such as the metadata of a node. A key occurs once; putting a
value under a key that is there replaces the value in place, and a new key goes to the end.
-/

namespace Discovery

/-- Texts under distinct keys. -/
structure Labels where
  /-- The keys with their values. -/
  entries : List (String × String) := []
  /-- No key occurs twice. -/
  nodup : (entries.map Prod.fst).Nodup := by exact List.nodup_nil
  deriving DecidableEq, Repr

namespace Labels

instance : Inhabited Labels := ⟨{}⟩

/-- The entries after `value` is put under `key`. -/
def put (key value : String) : List (String × String) → List (String × String)
  | [] => [(key, value)]
  | (k, v) :: rest => if k = key then (k, value) :: rest else (k, v) :: put key value rest

theorem keys_put (key value : String) (es : List (String × String)) :
    (put key value es).map Prod.fst =
      if key ∈ es.map Prod.fst then es.map Prod.fst else es.map Prod.fst ++ [key] := by
  induction es with
  | nil => simp [put]
  | cons e es ih =>
    obtain ⟨k, v⟩ := e
    by_cases h : k = key
    · simp [put, h]
    · simp only [put, h, ↓reduceIte, List.map_cons, ih, List.mem_cons, Ne.symm h, false_or]
      split <;> simp_all

/-- Puts `value` under `key`. -/
def insert (key value : String) (l : Labels) : Labels where
  entries := put key value l.entries
  nodup := by
    rw [keys_put]
    split
    · exact l.nodup
    · next h =>
      rw [List.nodup_append]
      refine ⟨l.nodup, by simp, fun a ha b hb => ?_⟩
      simp only [List.mem_singleton] at hb
      exact fun e => h (hb ▸ e ▸ ha)

def get? (key : String) (l : Labels) : Option String := l.entries.lookup key

/-- Labels from pairs; of pairs with one key the last counts. -/
def ofList (pairs : List (String × String)) : Labels :=
  pairs.foldl (fun l p => l.insert p.1 p.2) {}

/-- Reorders the entries. -/
def rearrange (l : Labels) (es : List (String × String)) (h : es.Perm l.entries) : Labels where
  entries := es
  nodup := (h.map Prod.fst).nodup_iff.2 l.nodup

end Labels

end Discovery
