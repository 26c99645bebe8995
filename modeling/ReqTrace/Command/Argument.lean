/-
Module: ReqTrace.Command.Argument
Purpose: The forms that an argument of a command line can have.
Main exports: Argument, Argument.ofText
-/
import ReqTrace.Text.Basic

namespace ReqTrace

/-- An argument by its form. -/
inductive Argument where
  /-- Two dashes alone: no switch follows any more. -/
  | endOfSwitches
  /-- Two dashes, the word of a switch, and a value after an equals sign if there is one. -/
  | word (word : Text) (value : Option Text)
  /-- One dash and the letters of switches. -/
  | letters (letters : Text)
  /-- Anything else; a dash alone is a value too. -/
  | value (text : Text)
  deriving DecidableEq, Repr

namespace Argument

/-- The form of an argument. -/
def ofText : Text → Argument
  | ['-', '-'] => endOfSwitches
  | '-' :: '-' :: rest =>
      match Text.cut? '=' rest with
      | some (name, attached) => word name (some attached)
      | none => word rest none
  | ['-'] => value ['-']
  | '-' :: rest => letters rest
  | text => value text

/-- Whether an argument can be the value of a switch before it. -/
def isValue (t : Text) : Bool :=
  match ofText t with
  | value _ => true
  | _ => false

example : ofText "--workers=4=".toList = word "workers".toList (some "4=".toList) := by decide
example : ofText "-ne".toList = letters "ne".toList := by decide
example : ["", "-", "a-b"].all (isValue ·.toList) = true := by decide

end Argument

end ReqTrace
