/-
Module: ReqTrace.Toml.Value
Purpose: TOML values and the rules by which keys and headers build up tables.
Main exports: Toml.Value, Toml.Entries, Toml.define?, Toml.openTable?, Toml.openItem?
-/
import ReqTrace.Text.Basic

namespace ReqTrace

namespace Toml

/-- How a table came about, which decides what may be added to it later. -/
inductive TableKind where
  /-- Written in braces; nothing may be added. -/
  | inline
  /-- Named on the way to a table below it. -/
  | implicit
  /-- Named before the last dot of a key. -/
  | dotted
  /-- Opened by a header of its own. -/
  | explicit
  deriving DecidableEq, Repr

/-- A TOML value. Numbers with a fraction or an exponent and dates are kept as written. -/
inductive Value where
  | string (text : Text)
  | integer (value : Int)
  | float (text : Text)
  | boolean (value : Bool)
  | date (text : Text)
  | array (items : List Value)
  | table (kind : TableKind) (entries : List (Text × Value))
  /-- The tables opened by headers in double brackets, the latest one first. -/
  | tables (items : List (List (Text × Value)))

/-- The entries of a table in the order of their definitions. -/
abbrev Entries := List (Text × Value)

/-- The value at a key. -/
def get? (entries : Entries) (key : Text) : Option Value :=
  (entries.find? fun entry => entry.1 == key).map (·.2)

/-- The entries with another value at a key. -/
def put (entries : Entries) (key : Text) (value : Value) : Entries :=
  if (get? entries key).isSome then
    entries.map fun entry => if entry.1 == key then (key, value) else entry
  else entries ++ [(key, value)]

/-- Changes the first of some tables. -/
def changeFirst? (f : Entries → Option Entries) : List Entries → Option (List Entries)
  | [] => none
  | first :: others => (f first).map (· :: others)

/-- Defines a key below a path of keys before it, all of them joined by dots. The tables on the path
    must not have a header, and the table that receives the key must have been named by such a path,
    too. A key is defined once. -/
def defineDotted? (key : Text) (value : Value) :
    (path : List Text) → (mayReceive : Bool) → Entries → Option Entries
  | [], mayReceive, entries =>
      if mayReceive && (get? entries key).isNone then some (entries ++ [(key, value)]) else none
  | step :: path, _, entries =>
      match get? entries step with
      | none => do
          let inner ← defineDotted? key value path true []
          return put entries step (.table .dotted inner)
      | some (.table .dotted inner) => do
          let inner ← defineDotted? key value path true inner
          return put entries step (.table .dotted inner)
      | some (.table .implicit inner) => do
          let inner ← defineDotted? key value path false inner
          return put entries step (.table .implicit inner)
      | some (.tables items) => do
          let items ← changeFirst? (defineDotted? key value path false) items
          return put entries step (.tables items)
      | some _ => none

/-- Defines a dotted key in a table. -/
def define? (keys : List Text) (value : Value) (entries : Entries) : Option Entries := do
  let key ← keys.getLast?
  defineDotted? key value keys.dropLast true entries

/-- Changes the table at a path of keys. Tables that do not exist yet are made on the way; of tables in
    double brackets the latest one is meant. -/
def changeAt? (f : Entries → Option Entries) : (path : List Text) → Entries → Option Entries
  | [], entries => f entries
  | step :: path, entries =>
      match get? entries step with
      | none => do
          let inner ← changeAt? f path []
          return put entries step (.table .implicit inner)
      | some (.table .inline _) => none
      | some (.table kind inner) => do
          let inner ← changeAt? f path inner
          return put entries step (.table kind inner)
      | some (.tables items) => do
          let items ← changeFirst? (changeAt? f path) items
          return put entries step (.tables items)
      | some _ => none

/-- Opens a table by a header. A table that is there only because one below it was opened may be opened
    once. -/
def openTable? (keys : List Text) (root : Entries) : Option Entries := do
  let key ← keys.getLast?
  changeAt? (fun entries =>
    match get? entries key with
    | none => some (entries ++ [(key, .table .explicit [])])
    | some (.table .implicit inner) => some (put entries key (.table .explicit inner))
    | some _ => none) keys.dropLast root

/-- Opens another table of a list of tables by a header in double brackets. -/
def openItem? (keys : List Text) (root : Entries) : Option Entries := do
  let key ← keys.getLast?
  changeAt? (fun entries =>
    match get? entries key with
    | none => some (entries ++ [(key, .tables [[]])])
    | some (.tables items) => some (put entries key (.tables ([] :: items)))
    | some _ => none) keys.dropLast root

end Toml

end ReqTrace
