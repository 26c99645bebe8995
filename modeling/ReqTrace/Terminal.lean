/-
Module: ReqTrace.Terminal
Purpose: Coloured lines.
Main exports: Tone, Tone.paint, wantsColour
-/
import ReqTrace.Text.Digits

namespace ReqTrace

/-- What a printed line says about a run. -/
inductive Tone where
  | success
  | warning
  | info
  deriving DecidableEq, Repr

namespace Tone

/-- Red, green and blue: plain green, orange, and light blue. -/
def colour : Tone → List Nat
  | success => [0, 128, 0]
  | warning => [255, 165, 0]
  | info => [173, 216, 230]

/-- A number with zeros in front up to three digits. -/
def threeDigits (n : Nat) : Text :=
  List.replicate (3 - (Text.decimal n).length) '0' ++ Text.decimal n

/-- The sequence that switches a colour on. -/
def start (tone : Tone) : Text :=
  "\x1b[38;2;".toList ++ Text.join [';'] (tone.colour.map threeDigits) ++ ['m']

/-- The sequence that goes back to the usual colour. -/
def stop : Text := "\x1b[39m".toList

/-- A text in the colour of its tone, if colours are wanted. -/
def paint (coloured : Bool) (tone : Tone) (t : Text) : Text :=
  if coloured then tone.start ++ t ++ stop else t

end Tone

/-- Whether the environment asks for colours. The variable may be empty, a word or a number of colours;
    what it does not say clearly counts as a wish. -/
def wantsColour (wish : Option Text) : Bool :=
  match wish with
  | none => false
  | some value =>
      if value = [] then true
      else if value = "false".toList then false
      else (Text.count? value).getD 1 != 0

example : Tone.success.paint true "x".toList = "\x1b[38;2;000;128;000mx\x1b[39m".toList := by decide
example : ["", "true", "false", "0", "+00", "3", "-1", "no"].map (wantsColour ·.toList) =
    [true, true, false, false, false, true, true, true] := by decide

end ReqTrace
