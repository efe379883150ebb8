import FluentGen.Proofs.Text.Enclosed
import FluentGen.Schema.FieldType

/-!
Defaults of text and bytes. The expression of such a default is a literal between double quotes that
ends where it should, and what stands inside reads as the bytes that the schema means.
-/

namespace FluentGen.Schema

open Text (IsPlain QuotesEscaped unescape utf8)

/-- The bytes that the default of a text or of bytes stands for: those of the text itself, or those
that the escaped text reads as. -/
inductive StandsFor : FieldKind → String → List UInt8 → Prop where
  | text (text : String) : StandsFor .string text (utf8 text)
  | bytes {text : String} {bytes : List UInt8} (hread : unescape text = .ok bytes) :
    StandsFor .bytes text bytes

/-- Bytes of any kind can be put between double quotes: they become printable ASCII without a double
quote that is not escaped, and reading gives them back. So the default of a text, and a default of
bytes that can be read, becomes a literal that reads as the bytes it stands for. -/
theorem literal_of_default :
    (∀ bytes : List UInt8,
      IsPlain (Text.escapeToAscii bytes).toList ∧
      QuotesEscaped (Text.escapeToAscii bytes).toList ∧
      unescape (Text.escapeToAscii bytes) = .ok bytes) ∧
    ∀ (f : Field) (text : String) (bytes : List UInt8), f.default = some text →
      StandsFor f.kind text bytes →
      ∃ inside, f.defaultExpression = .ok ("\"" ++ inside ++ "\"") ∧
        IsPlain inside.toList ∧ QuotesEscaped inside.toList ∧ unescape inside = .ok bytes := by
  have hescaped : ∀ bytes : List UInt8,
      IsPlain (Text.escapeToAscii bytes).toList ∧
      QuotesEscaped (Text.escapeToAscii bytes).toList ∧
      unescape (Text.escapeToAscii bytes) = .ok bytes := by
    intro bytes
    have hpieces := Text.escapedText_escapeBytes bytes
    rw [unescape, Text.escapeToAscii, String.toList_ofList]
    exact ⟨Text.isPlain_escapeBytes bytes, hpieces.quotesEscaped, hpieces.unescapeChars_eq⟩
  refine ⟨hescaped, ?_⟩
  intro f text bytes hdefault hbytes
  refine ⟨Text.escapeToAscii bytes, ?_, hescaped bytes⟩
  unfold Field.defaultExpression
  rw [hdefault]
  generalize f.kind = kind at hbytes
  cases hbytes with
  | text => rfl
  | bytes hread =>
    simp only [hread]
    rfl

/-- A default of bytes with a hexadecimal escape, an octal one in front of a digit, a Unicode one,
and an escaped backslash and quote at its end. -/
theorem literal_of_default_escapes :
    let f : Field :=
      { name := "b", fullName := "p.M.b", number := 1, kind := .bytes, label := .optional
        container := ⟨"m.proto", [0]⟩, typeName := "", target := .scalar
        default := some "\\xff\\0017\\u00e9\\\\\\\"", annotations := [] }
    ∃ inside, f.defaultExpression = .ok ("\"" ++ inside ++ "\"") ∧
      IsPlain inside.toList ∧ QuotesEscaped inside.toList ∧
      unescape inside = .ok [255, 1, 55, 195, 169, 92, 34] := by
  intro f
  exact literal_of_default.2 f _ _ rfl (.bytes (by decide +kernel))

end FluentGen.Schema
