import DocPath.Toml.Basic

/-!
# TOML tables

Putting the lines of a document together. A key is written once, a table is opened by one header
at most, and a table that is complete, or was made the other way, does not grow.

* `Toml.insertPath` — writes a value under a dotted key;
* `Toml.openTable`, `Toml.openArrayTable` — what a header does;
* `Toml.ofStatements` — the root table of a document.
-/

namespace DocPath

namespace Toml

/-- Follows a path of names, making tables where nothing is, and changes the table at its end.
Dotted keys pass only tables that no header has opened, and a header passes the newest of an
array of tables. -/
def descend (dotted : Bool) (change : Origin → Entries Toml → Option (Origin × Entries Toml)) :
    List String → Origin → Entries Toml → Option (Origin × Entries Toml)
  | [], origin, entries => change origin entries
  | k :: path, origin, entries =>
    match Entries.get? entries k with
    | none => do
      let (o, es) ← descend dotted change path (if dotted then .dotted else .passed) []
      some (origin, Entries.insert entries k (.table o es))
    | some (.table .braces _) => none
    | some (.table o es) =>
      if dotted && o == .header then none
      else do
        let (o, es) ← descend dotted change path o es
        some (origin, Entries.insert entries k (.table o es))
    | some (.tables (newest :: older)) => do
      let (_, es) ← descend dotted change path .header newest
      some (origin, Entries.insert entries k (.tables (es :: older)))
    | some _ => none

/-- Writes a new key into a table. Under a longer dotted key the table must be one that dotted
keys made. -/
def addKey (dotted : Bool) (k : String) (v : Toml) (origin : Origin) (entries : Entries Toml) :
    Option (Origin × Entries Toml) :=
  if dotted && origin != .dotted then none
  else if Entries.contains entries k then none
  else some (origin, Entries.insert entries k v)

/-- Writes a value under a dotted key of a table. -/
def insertPath (path : List String) (v : Toml) (origin : Origin) (entries : Entries Toml) :
    Option (Origin × Entries Toml) :=
  match path.getLast? with
  | none => none
  | some k => descend true (addKey (path.length > 1) k v) path.dropLast origin entries

/-- Opens the table of a header: a new one, or one that was only passed so far. -/
def openTable (k : String) (origin : Origin) (entries : Entries Toml) :
    Option (Origin × Entries Toml) :=
  match Entries.get? entries k with
  | none => some (origin, Entries.insert entries k (.table .header []))
  | some (.table .passed es) => some (origin, Entries.insert entries k (.table .header es))
  | some _ => none

/-- Opens one more table of an array of tables. -/
def openArrayTable (k : String) (origin : Origin) (entries : Entries Toml) :
    Option (Origin × Entries Toml) :=
  match Entries.get? entries k with
  | none => some (origin, Entries.insert entries k (.tables [[]]))
  | some (.tables ts) => some (origin, Entries.insert entries k (.tables ([] :: ts)))
  | some _ => none

/-- A document as far as it is read: its root table and the path of the open table. -/
structure Draft where
  root : Entries Toml
  opened : List String

/-- Changes the root table. -/
def Draft.change (d : Draft)
    (f : Origin → Entries Toml → Option (Origin × Entries Toml)) : Option Draft :=
  (f .header d.root).map fun r => { d with root := r.2 }

/-- Takes one more line into account. -/
def Draft.add (d : Draft) : Statement → Option Draft
  | .keyValue path v => d.change (descend false (insertPath path v) d.opened)
  | .header path =>
    match path.getLast? with
    | none => none
    | some k =>
      (d.change (descend false (openTable k) path.dropLast)).map fun d => { d with opened := path }
  | .arrayHeader path =>
    match path.getLast? with
    | none => none
    | some k =>
      (d.change (descend false (openArrayTable k) path.dropLast)).map fun d =>
        { d with opened := path }

/-- The root table that the lines of a document make. -/
def ofStatements (lines : List Statement) : Option (Entries Toml) :=
  (lines.foldlM Draft.add ⟨[], []⟩).map Draft.root

/-- The table that the keys between braces make. -/
def ofBraces (pairs : List (List String × Toml)) : Option Toml :=
  (pairs.foldlM (fun (r : Origin × Entries Toml) p => insertPath p.1 p.2 r.1 r.2) (.header, [])).map
    fun r => .table .braces r.2

end Toml

end DocPath
