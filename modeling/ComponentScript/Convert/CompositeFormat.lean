/-
  ComponentScript.Convert.CompositeFormat — format strings with numbered holes, as template
  literals: `"{0} of {1}"` with two arguments.

  A doubled brace stands for one brace. A hole is a number between braces, with an optional
  alignment or format behind a comma or a colon, which the template cannot keep.
-/

import ComponentScript.Convert.Call
import ComponentScript.Convert.Converter
import ComponentScript.Script.Template
import ComponentScript.Text.Blank

namespace ComponentScript

open Text

inductive FormatPiece where
  | text (chars : List Char)
  /-- An argument by its number, with what follows the number. -/
  | hole (index : Nat) (format : List Char)
  deriving DecidableEq

namespace FormatPiece

/-- Puts a character in front of the pieces. -/
def consChar (c : Char) : List FormatPiece → List FormatPiece
  | .text cs :: pieces => .text (c :: cs) :: pieces
  | pieces => .text [c] :: pieces

/-- An unsigned 64-bit decimal, which may have a plus sign. -/
def readIndex? (cs : List Char) : Option Nat :=
  let digits := match cs with
    | '+' :: rest => rest
    | _ => cs
  if digits.isEmpty || !digits.all Char.isDigit then none
  else
    let n := digits.foldl (fun n d => n * 10 + (d.toNat - 48)) 0
    if n < 18446744073709551616 then some n else none

def endsIndex (c : Char) : Bool := c = ',' || c = ':'

/-- A hole, given what stands between its braces. -/
def readHole? (inner : List Char) : Option FormatPiece :=
  (readIndex? (trim (inner.takeWhile (!endsIndex ·)))).map fun index =>
    .hole index (inner.dropWhile (!endsIndex ·))

/-- The pieces of a format string; nothing if a hole is not closed or has no number. -/
def parse? (cs : List Char) : Option (List FormatPiece) :=
  match cs with
  | [] => some []
  | '\x7b' :: '\x7b' :: rest => (parse? rest).map (consChar '\x7b')
  | '\x7d' :: '\x7d' :: rest => (parse? rest).map (consChar '\x7d')
  | '\x7b' :: rest =>
    match _h : rest.dropWhile (· ≠ '\x7d') with
    | [] => none
    | _ :: after => do
      let hole ← readHole? (rest.takeWhile (· ≠ '\x7d'))
      let pieces ← parse? after
      return hole :: pieces
  | c :: rest => (parse? rest).map (consChar c)
termination_by cs.length
decreasing_by
  · simp only [List.length_cons]; omega
  · simp only [List.length_cons]; omega
  · have hle := (List.dropWhile_sublist (fun c : Char => c ≠ '\x7d') (l := rest)).length_le
    rw [_h] at hle
    simp only [List.length_cons] at hle ⊢
    omega
  · simp only [List.length_cons]; omega

/-- Whether a hole refers to one of `n` arguments. -/
def fits (n : Nat) : FormatPiece → Bool
  | .text _ => true
  | .hole index _ => index < n

def dropsFormat : FormatPiece → Bool
  | .text _ => false
  | .hole _ format => !format.isEmpty

/-- The piece inside a template, with the arguments' texts. -/
def render (values : List String) : FormatPiece → String
  | .text cs => Script.escapeTemplate (String.ofList cs)
  | .hole index _ => Script.substitution (values[index]?.getD "")

end FormatPiece

namespace Converter

variable (k : Converter)

/-- A format string with its arguments as a template literal. Nothing unless the format is
    a string literal whose holes all refer to arguments. -/
def compositeFormat? (template : Expr) (args : List Argument) : Emit (Option String) :=
  match template.stringLiteral?.bind fun s => FormatPiece.parse? s.toList with
  | none => return none
  | some pieces =>
    if pieces.all (FormatPiece.fits args.length) then do
      let values ← k.arguments args
      if pieces.any FormatPiece.dropsFormat then
        Emit.report (.lossy "composite_format" template.span
          "alignment or format specifier dropped")
      return some ("`" ++ String.join (pieces.map (FormatPiece.render values)) ++ "`")
    else return none

end Converter

end ComponentScript
