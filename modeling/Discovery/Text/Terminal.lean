/-!
# Text for a terminal

Some control characters make a terminal ring, move, wipe or recolour what it shows. In text from
outside that is shown there they are written out by their codes, so that the text cannot act on the
terminal. Tabs, line breaks and the rest stay as they are.
-/

namespace Discovery.Text

/-- The control characters of ASCII that a terminal acts on: bell, backspace, form feed, escape and
delete. -/
def terminalControls : List Char := ['\x07', '\x08', '\x0c', '\x1b', '\x7f']

/-- Whether `c` is a control character of Latin-1, which a terminal may take for an escape and a
letter. -/
def isHighControl (c : Char) : Bool := 0x80 ≤ c.toNat && c.toNat ≤ 0x9F

/-- Whether a terminal may act on `c`. -/
def actsOnTerminal (c : Char) : Bool := terminalControls.contains c || isHighControl c

/-- The two hexadecimal digits of a code below 256. -/
def codeDigits (n : Nat) : List Char := [Nat.digitChar (n / 16), Nat.digitChar (n % 16)]

/-- One character of a text for a terminal. -/
def terminalChar (c : Char) : List Char :=
  if terminalControls.contains c then ['\\', 'x'] ++ codeDigits c.toNat
  else if isHighControl c then ['\\', 'u', '\x7b'] ++ codeDigits c.toNat ++ ['\x7d']
  else [c]

/-- A text as it is shown on a terminal. -/
def forTerminal (s : String) : String := String.ofList (s.toList.flatMap terminalChar)

/-- A terminal acts on no digit. -/
theorem actsOnTerminal_digitChar : ∀ n : Nat, actsOnTerminal (Nat.digitChar n) = false
  | 0 | 1 | 2 | 3 | 4 | 5 | 6 | 7 | 8 | 9 | 10 | 11 | 12 | 13 | 14 | 15 => rfl
  | _ + 16 => rfl

/-- A terminal acts on nothing that one character is written as. -/
theorem actsOnTerminal_of_mem_terminalChar {c d : Char} (h : d ∈ terminalChar c) :
    actsOnTerminal d = false := by
  unfold terminalChar codeDigits at h
  split at h
  · simp only [List.cons_append, List.nil_append, List.mem_cons, List.not_mem_nil, or_false] at h
    rcases h with rfl | rfl | rfl | rfl
    · rfl
    · rfl
    · exact actsOnTerminal_digitChar _
    · exact actsOnTerminal_digitChar _
  · split at h
    · simp only [List.cons_append, List.nil_append, List.mem_cons, List.not_mem_nil, or_false] at h
      rcases h with rfl | rfl | rfl | rfl | rfl | rfl
      · rfl
      · rfl
      · rfl
      · exact actsOnTerminal_digitChar _
      · exact actsOnTerminal_digitChar _
      · rfl
    · next hc hh =>
      rw [List.mem_singleton.1 h, actsOnTerminal, Bool.or_eq_false_iff]
      exact ⟨Bool.eq_false_iff.2 hc, Bool.eq_false_iff.2 hh⟩

/-- A terminal acts on nothing in a text that is written for it. -/
theorem actsOnTerminal_of_mem_forTerminal {s : String} {c : Char}
    (h : c ∈ (forTerminal s).toList) : actsOnTerminal c = false := by
  rw [forTerminal, String.toList_ofList] at h
  obtain ⟨_, _, h⟩ := List.mem_flatMap.1 h
  exact actsOnTerminal_of_mem_terminalChar h

end Discovery.Text
