/-!
Values of settings files and the tables that hold them. A table keeps its keys in the order in which
they were first put.
-/

namespace ComponentAtlas.Toml

/-- A value. `null` stands for one that is missing; no file can hold it. -/
inductive Value where
  | null
  | truth (b : Bool)
  | whole (n : Int)
  | number (x : Float)
  | text (s : String)
  | list (items : List Value)
  | table (entries : List (String × Value))

abbrev Table := List (String × Value)

namespace Value

def text? : Value → Option String
  | .text s => some s
  | _ => none

def table? : Value → Option Table
  | .table entries => some entries
  | _ => none

end Value

namespace Table

def get? (t : Table) (key : String) : Option Value := t.lookup key

/-- The table with `key` set to `v`, a new key coming last. -/
def put : Table → String → Value → Table
  | [], key, v => [(key, v)]
  | (k, old) :: rest, key, v =>
    if k == key then (k, v) :: rest else (k, old) :: Table.put rest key v

/-- The table below a key, which is empty where the key is missing. -/
def tableAt? (t : Table) (key : String) : Option Table :=
  match t.get? key with
  | none => some []
  | some v => v.table?

/-- The value at a path of keys. -/
def at? (t : Table) : List String → Option Value
  | [] => some (.table t)
  | key :: keys =>
    match t.get? key with
    | none => none
    | some (.table below) => Table.at? below keys
    | some v => if keys.isEmpty then some v else none

/-- The table with a new value at a path of keys, the tables on the way being made where they are
missing. A path that leads to or through another value is refused. -/
def define? (v : Value) (t : Table) : List String → Option Table
  | [] => none
  | [key] => if (t.get? key).isSome then none else some (Table.put t key v)
  | key :: keys => do
    let below ← Table.tableAt? t key
    let below ← Table.define? v below keys
    some (Table.put t key (.table below))

end Table

end ComponentAtlas.Toml
