/-
# `Value.Entries` — dictionaries as entries in order

A dictionary keeps its entries in the order in which their keys were first
put in; putting an equal key again replaces the value alone.
-/
import Conform.Value.Equality

namespace Conform

abbrev Entries := List (Value × Value)

namespace Entries

def find? : Entries → Value → Option Value
  | [], _ => none
  | (k, v) :: rest, key => if Value.sameKey k key then some v else find? rest key

def contains (es : Entries) (key : Value) : Bool := (es.find? key).isSome

def put : Entries → Value → Value → Entries
  | [], key, value => [(key, value)]
  | (k, v) :: rest, key, value =>
      if Value.sameKey k key then (k, value) :: rest else (k, v) :: put rest key value

def erase (es : Entries) (key : Value) : Entries := es.filter (!Value.sameKey ·.1 key)

/-- Puts the entries of the second into the first, one after another. -/
def update (es fs : Entries) : Entries := fs.foldl (fun acc (k, v) => acc.put k v) es

def ofList (es : List (Value × Value)) : Entries := update [] es

/-- The value under a text key. -/
def get? (es : Entries) (name : String) : Option Value := es.find? (.str name)

/-- The value under a text key, or a stand-in. -/
def getD (es : Entries) (name : String) (fallback : Value) : Value := (es.get? name).getD fallback

end Entries

namespace Value

/-- The elements in order, equal ones once. -/
def dedupe (items : List Value) : List Value :=
  items.foldl (fun kept v => if kept.any (sameKey · v) then kept else kept ++ [v]) []

end Value

end Conform
