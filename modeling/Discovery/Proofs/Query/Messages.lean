import Discovery.Proofs.Query.Faults
import Discovery.Proofs.Text.Quoted

/-!
# What the message of a fault tells

Messages quote pieces of the text that was refused, and this text may imitate the wording around
them. A message can be taken apart all the same: the quoted text ends where its quote does, and the
remark behind it shows the kind of the fault at its third character. So a message tells its fault
(`message_tells`), and since nothing unprintable is left in what is quoted, it is one line.
-/

namespace Discovery.Query.Error

open Text (IsControl Shown quoted quotedChar quoted_append_inj quoted_inj quotedChar_inj shown_quoted
  shown_quotedChar shown_of_isPlain)

variable {e e' : Error} {input : String}

/-- What a message says behind the text that it quotes. -/
def remark : Error → String
  | .empty => "empty query"
  | .missingOperand _ separator => ": missing value after " ++ quotedChar separator
  | .unsupportedOption _ key => ": unsupported option " ++ quoted key
  | .duplicateOption _ key => ": option " ++ quoted key ++ " given more than once"
  | .nameRequired _ => ": name required"

/-- The third character of a remark. -/
def mark : Error → Char
  | .empty => 'p'
  | .missingOperand .. => 'm'
  | .unsupportedOption .. => 'u'
  | .duplicateOption .. => 'o'
  | .nameRequired _ => 'n'

theorem message_of_input (h : e.input? = some input) :
    e.message = preamble ++ (quoted input ++ e.remark) := by
  cases e with
  | empty => cases h
  | missingOperand | unsupportedOption | duplicateOption | nameRequired =>
    cases h
    unfold message remark
    simp only [String.append_assoc]

theorem eq_empty_of_input (h : e.input? = none) : e = .empty := by
  cases e with
  | empty => rfl
  | missingOperand | unsupportedOption | duplicateOption | nameRequired => cases h

theorem mark_of_remark (e : Error) : e.remark.toList[2]? = some e.mark := by
  unfold remark mark
  cases e <;> simp

/-- A fault can be told from its remark, given the text that it was found in. -/
theorem eq_of_remark_eq (hinput : e.input? = e'.input?) (h : e.remark = e'.remark) : e = e' := by
  have hmark : e.mark = e'.mark := by
    have hthird := mark_of_remark e
    rw [h, mark_of_remark] at hthird
    exact (Option.some.inj hthird).symm
  cases e with
  | empty =>
    cases e' with
    | empty => rfl
    | _ => cases hmark
  | missingOperand input separator =>
    cases e' with
    | missingOperand input' separator' =>
      cases hinput
      rw [quotedChar_inj.1 ((String.append_right_inj _).1 h)]
    | _ => cases hmark
  | unsupportedOption input key =>
    cases e' with
    | unsupportedOption input' key' =>
      cases hinput
      rw [quoted_inj.1 ((String.append_right_inj _).1 h)]
    | _ => cases hmark
  | duplicateOption input key =>
    cases e' with
    | duplicateOption input' key' =>
      cases hinput
      unfold remark at h
      simp only [String.append_assoc] at h
      rw [(quoted_append_inj.1 ((String.append_right_inj _).1 h)).1]
    | _ => cases hmark
  | nameRequired input =>
    cases e' with
    | nameRequired input' =>
      cases hinput
      rfl
    | _ => cases hmark

theorem quoted_append_ne_empty (input : String) (t : String) :
    preamble ++ (quoted input ++ t) ≠ message .empty := by
  intro h
  have hlist := congrArg String.toList ((String.append_right_inj _).1 h)
  simp [quoted] at hlist

theorem message_inj : e.message = e'.message ↔ e = e' := by
  constructor
  · intro h
    cases hinput : e.input? with
    | none =>
      obtain rfl := eq_empty_of_input hinput
      cases hinput' : e'.input? with
      | none => exact (eq_empty_of_input hinput').symm
      | some input' =>
        rw [message_of_input hinput'] at h
        exact absurd h.symm (quoted_append_ne_empty input' _)
    | some input =>
      rw [message_of_input hinput] at h
      cases hinput' : e'.input? with
      | none =>
        obtain rfl := eq_empty_of_input hinput'
        exact absurd h (quoted_append_ne_empty input _)
      | some input' =>
        rw [message_of_input hinput'] at h
        obtain ⟨rfl, hremark⟩ := quoted_append_inj.1 ((String.append_right_inj _).1 h)
        exact eq_of_remark_eq (hinput.trans hinput'.symm) hremark
  · rintro rfl
    rfl

theorem shown_remark (e : Error) : Shown e.remark.toList := by
  unfold remark
  cases e with
  | empty => exact shown_of_isPlain (by decide)
  | nameRequired input =>
    show Shown ": name required".toList
    exact shown_of_isPlain (by decide)
  | missingOperand input separator =>
    rw [String.toList_append]
    exact (shown_of_isPlain (by decide)).append (shown_quotedChar separator)
  | unsupportedOption input key =>
    rw [String.toList_append]
    exact (shown_of_isPlain (by decide)).append (shown_quoted key)
  | duplicateOption input key =>
    rw [String.toList_append, String.toList_append]
    have hfront : Shown ": option ".toList := shown_of_isPlain (by decide)
    exact (hfront.append (shown_quoted key)).append (shown_of_isPlain (by decide))

theorem shown_message (e : Error) : Shown e.message.toList := by
  cases hinput : e.input? with
  | none =>
    rw [eq_empty_of_input hinput]
    exact shown_of_isPlain (by decide)
  | some input =>
    have hpreamble : Shown preamble.toList := shown_of_isPlain (by decide)
    rw [message_of_input hinput, String.toList_append, String.toList_append]
    exact hpreamble.append ((shown_quoted input).append (shown_remark e))

/-- **A message tells its fault and is one line.** Two faults have one message only if they are the
same, and no message has a control character or anything else that is unprintable, whatever the
texts in it hold. -/
theorem message_tells (e e' : Error) : (e.message = e'.message ↔ e = e') ∧
    ∀ c ∈ e.message.toList, ¬IsControl c ∧ Text.isUnprintable c = false := by
  refine ⟨message_inj, fun c hc => ?_⟩
  have hshown := shown_message e c hc
  refine ⟨fun hcontrol => ?_, hshown⟩
  rw [Text.isUnprintable_of_control hcontrol] at hshown
  cases hshown

end Discovery.Query.Error
