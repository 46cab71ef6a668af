import ArenaMemory.Binary64

namespace ArenaMemory.Toml

inductive TableForm where
  | header
  /-- Passed by a header on its way. -/
  | implied
  /-- Made by dotted keys. -/
  | dotted
  | inline
deriving DecidableEq

inductive Value where
  | string (text : String)
  | integer (n : Int)
  | float (x : Binary64)
  | boolean (b : Bool)
  /-- A date, a time or both, as written. -/
  | moment (text : String)
  | array (items : List Value)
  | table (form : TableForm) (entries : List (String × Value))
  /-- Tables that were opened one after the other under one name. -/
  | tables (items : List (List (String × Value)))

abbrev Entries := List (String × Value)

namespace Entries

def replace (entries : Entries) (key : String) (value : Value) : Entries :=
  entries.map fun entry => if entry.1 = key then (key, value) else entry

/-- Changes the table that a path leads to, making those that are missing. Dotted keys lead through
no table that a header opened. -/
def update (byDots : Bool) (change : TableForm → Entries → Option Entries) :
    List String → TableForm → Entries → Option Entries
  | [], form, entries => change form entries
  | key :: path, _, entries =>
    match entries.lookup key with
    | none =>
      let fresh : TableForm := if byDots then .dotted else .implied
      (update byDots change path fresh []).map fun inner =>
        entries ++ [(key, .table fresh inner)]
    | some (.table form inner) =>
      if form = .inline || (byDots && form = .header) then none
      else
        (update byDots change path form inner).map fun inner =>
          entries.replace key (.table form inner)
    | some (.tables items) =>
      match items.getLast? with
      | none => none
      | some last =>
        (update byDots change path .header last).map fun last =>
          entries.replace key (.tables (items.dropLast ++ [last]))
    | some _ => none

/-- Sets a key that is new. Keys after dots belong to tables made by dots, and no others do. -/
def insertNew (dotted : Bool) (key : String) (value : Value) (form : TableForm)
    (entries : Entries) : Option Entries :=
  if dotted = (form = .dotted) then
    match entries.lookup key with
    | none => some (entries ++ [(key, value)])
    | some _ => none
  else none

def insert (entries : Entries) (form : TableForm) (path : List String) (key : String)
    (value : Value) : Option Entries :=
  update true (insertNew (!path.isEmpty) key value) path form entries

def openTable (entries : Entries) (path : List String) (key : String) : Option Entries :=
  update false (fun _ entries =>
    match entries.lookup key with
    | none => some (entries ++ [(key, .table .header [])])
    | some (.table .implied inner) => some (entries.replace key (.table .header inner))
    | some _ => none) path .header entries

def openNext (entries : Entries) (path : List String) (key : String) : Option Entries :=
  update false (fun _ entries =>
    match entries.lookup key with
    | none => some (entries ++ [(key, .tables [[]])])
    | some (.tables items) => some (entries.replace key (.tables (items ++ [[]])))
    | some _ => none) path .header entries

def insertIn (entries : Entries) (opened : List String) (path : List String) (key : String)
    (value : Value) : Option Entries :=
  update false (fun form entries => entries.insert form path key value) opened .header entries

end Entries

end ArenaMemory.Toml
