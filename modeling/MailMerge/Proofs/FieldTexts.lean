import MailMerge.Job.Record
import MailMerge.Proofs.ShortestNumerals

/-!
# What a field shows of a value

A value that stands alone in a field and a value between the brackets of an array
are written by two printers, and it is not stated anywhere that they agree. They do,
for all values but strings, which lose their quotes on purpose, and two kinds of
floating-point numbers: a whole number loses its `.0`, and what is no number is
spelt with capitals.

So a whole number in a field does not read back as a floating-point number. Which
numbers these are is not a matter of their texts: a number is whole if its magnitude
is (`Binary64.exponent_nonneg_iff`).
-/

namespace MailMerge

open Toml

/-! ## Floating-point numbers in two layouts -/

/-- A finite number without a fraction; both zeros are. -/
def Binary64.IsWhole (x : Binary64) : Prop :=
  x.isNaN = false ∧ x.isInfinite = false ∧ x.magnitude.2 ∣ x.magnitude.1

instance : DecidablePred Binary64.IsWhole := fun _ =>
  inferInstanceAs (Decidable (_ ∧ _ ∧ _))

theorem positionalText_true (d : Decimal) :
    positionalText true d
      = positionalText false d ++ if 0 ≤ d.exponent then ['.', '0'] else [] := by
  unfold positionalText
  by_cases h : 0 ≤ d.exponent
  · simp [h]
  · simp [h]

theorem inlineLayout_text {x : Binary64} (h : x.isNaN = false) :
    inlineLayout.text x = fieldLayout.text x ++ if x.IsWhole then ['.', '0'] else [] := by
  by_cases hinfinite : x.isInfinite
  · have hwhole : ¬ x.IsWhole := fun hw => absurd (hw.2.1.symm.trans hinfinite) (by decide)
    simp [NumberLayout.text, h, hinfinite, hwhole, inlineLayout, fieldLayout]
  · have hwhole : x.IsWhole ↔ 0 ≤ x.shortest.exponent := by
      rw [Binary64.exponent_nonneg_iff]
      exact ⟨fun hw => hw.2.2, fun hdvd => ⟨h, eq_false_of_ne_true hinfinite, hdvd⟩⟩
    simp [NumberLayout.text, h, hinfinite, hwhole, inlineLayout, fieldLayout,
      positionalText_true]

theorem text_of_isNaN {x : Binary64} (h : x.isNaN = true) (layout : NumberLayout) :
    layout.text x = layout.nan.toList :=
  if_pos h

/-! ## Values alone and between brackets -/

theorem inlineElements_eq :
    ∀ elements, inlineElements elements = [',', ' '].intercalate (elements.map Value.inline)
  | [] => rfl
  | [value] => by simp [inlineElements]
  | value :: next :: rest => by
      rw [inlineElements, inlineElements_eq (next :: rest)]
      · simp [List.intercalate_cons_cons]
      · simp

theorem fieldText_eq_inline_iff {value : Value} (hstring : ∀ content, value ≠ .string content) :
    value.fieldText = value.inline ↔
      ∀ x, value = .float x → x.isNaN = false ∧ ¬ x.IsWhole := by
  cases value with
  | string content => exact absurd rfl (hstring content)
  | integer _ | boolean _ | dateTime _ | array _ | table _ => exact ⟨fun _ => nofun, fun _ => rfl⟩
  | float x =>
      show fieldLayout.text x = inlineLayout.text x ↔ _
      by_cases hnan : x.isNaN = true
      · rw [text_of_isNaN hnan, text_of_isNaN hnan]
        simp [fieldLayout, inlineLayout, hnan]
      · have hnumber := eq_false_of_ne_true hnan
        rw [inlineLayout_text hnumber]
        by_cases hwhole : x.IsWhole <;> simp [hnumber, hwhole]

theorem Record.value?_of_lookup {record : Record} {key : String} {value : Value}
    (h : record.lookup key = some value) :
    record.fields.value? key = some (String.ofList value.fieldText) := by
  simp [Record.fields, h]

/-- A value that is not a string has a text in its field, and that is the one which the
value has between the brackets of an array, unless it is a floating-point number without
a fraction, whose text lacks `.0`, or one that is no number, which is spelt with capitals. -/
theorem Record.field_text_eq_inline_iff {record : Record} {key : String} {value : Value}
    (hkey : record.lookup key = some value) (hstring : ∀ content, value ≠ .string content) :
    ∃ text, record.fields.value? key = some (String.ofList text) ∧
      (text = value.inline ↔ ∀ x, value = .float x → x.isNaN = false ∧ ¬ x.IsWhole) ∧
      (∀ x, value = .float x → x.IsWhole → value.inline = text ++ ['.', '0']) ∧
      (∀ x, value = .float x → x.isNaN = true →
        text = "NaN".toList ∧ value.inline = "nan".toList) ∧
      ∀ list front back, record.lookup list = some (.array (front ++ value :: back)) →
        record.fields.value? list = some (String.ofList ('[' ::
          [',', ' '].intercalate
            (front.map Value.inline ++ value.inline :: back.map Value.inline) ++ [']'])) := by
  refine ⟨value.fieldText, value?_of_lookup hkey, fieldText_eq_inline_iff hstring, ?_, ?_, ?_⟩
  · rintro x rfl hwhole
    show inlineLayout.text x = fieldLayout.text x ++ ['.', '0']
    rw [inlineLayout_text hwhole.1, if_pos hwhole]
  · rintro x rfl hnan
    exact ⟨text_of_isNaN hnan fieldLayout, text_of_isNaN hnan inlineLayout⟩
  · intro list front back hlist
    rw [value?_of_lookup hlist, Value.fieldText, Value.inline, inlineElements_eq,
      List.map_append, List.map_cons]
    all_goals nofun

/-- A value in an array and by itself. -/
def Record.twice (value : Value) : Record :=
  [("l", .array [value]), ("x", value)]

/-- The number one between brackets and alone. -/
theorem Record.field_text_ne_inline :
    let one : Value := .float ⟨0x3FF0000000000000⟩
    (Record.twice one).lookup "x" = some one ∧ one.inline = "1.0".toList ∧
      (Record.twice one).fields.value? "x" = some "1" ∧
      (Record.twice one).fields.value? "l" = some "[1.0]" :=
  ⟨rfl, by decide +kernel, by decide +kernel, by decide +kernel⟩

theorem Record.field_text_one_and_half :
    let one : Value := .float ⟨0x3FF0000000000000⟩
    let half : Value := .float ⟨0x3FE0000000000000⟩
    (Record.twice one).lookup "x" = some one ∧ (Record.twice half).lookup "x" = some half ∧
      (∃ text, (Record.twice one).fields.value? "x" = some (String.ofList text) ∧
        one.inline = text ++ ['.', '0']) ∧
      (Record.twice half).fields.value? "x" = some (String.ofList half.inline) := by
  intro one half
  have hone : (Record.twice one).lookup "x" = some one := rfl
  have hhalf : (Record.twice half).lookup "x" = some half := rfl
  refine ⟨hone, hhalf, ?_, ?_⟩
  · obtain ⟨text, htext, -, hwhole, -⟩ := Record.field_text_eq_inline_iff hone nofun
    exact ⟨text, htext, hwhole _ rfl (by decide)⟩
  · obtain ⟨text, htext, hsame, -⟩ := Record.field_text_eq_inline_iff hhalf nofun
    rw [htext, hsame.mpr]
    intro x hx
    obtain rfl := Value.float.inj hx
    decide

end MailMerge
