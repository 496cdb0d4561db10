/-
# Admission.Text.Percent — percent-encoding

A byte can be written as a percent sign and two hexadecimal digits. A percent sign that is not
followed by two of them stands for itself, as does every other character.
-/
import Admission.Text.Digits

namespace Admission.Text.Percent

/-- The bytes that a percent-encoded text stands for. -/
def decode : List Char → List UInt8
  | [] => []
  | '%' :: a :: b :: rest =>
    match hexDigit? a, hexDigit? b with
    | some high, some low => UInt8.ofNat (16 * high + low) :: decode rest
    | _, _ => String.utf8EncodeChar '%' ++ decode (a :: b :: rest)
  | c :: rest => String.utf8EncodeChar c ++ decode rest

/-- The text that a percent-encoded text stands for, if its bytes are one. -/
def decodeText? (cs : List Char) : Option String := String.fromUTF8? ⟨(decode cs).toArray⟩

end Admission.Text.Percent
