import DocPath.Navigator.Text

/-!
# Steps

A path is written as a list of steps. Beside navigators, a bare key, a bare index and a bare
predicate are steps too.

* `Step` — the steps, with coercions from what stands for them;
* `Step.ofUnsigned` — the index step of an unsigned word;
* `Step.resolve` — the navigator that a step stands for;
* `Step.text` — the text of a step, short forms kept.
-/

namespace DocPath

/-- One element of a written path. -/
inductive Step where
  | navigator (n : Navigator)
  /-- Short for the navigator to a key. -/
  | key (name : String)
  /-- Short for the navigator to an index. -/
  | index (i : Int64)
  /-- Short for the navigator that tests a predicate. -/
  | predicate (holds : Value → Bool)

namespace Step

instance : Coe Navigator Step := ⟨.navigator⟩

instance : Coe String Step := ⟨.key⟩

instance : Coe Int64 Step := ⟨.index⟩

/-- The index step of an unsigned word, read as a signed word of the same bits: from 2^63 on it
counts from the end. -/
def ofUnsigned (n : UInt64) : Step := .index n.toInt64

/-- The navigator that the step stands for. -/
def resolve : Step → Navigator
  | .navigator n => n
  | .key name => .key name
  | .index i => .nth i
  | .predicate holds => .pred holds

/-- The text of a step: a key in quotes, an index in decimal. -/
def text : Step → String
  | .navigator n => n.text
  | .key name => Text.quote name
  | .index i => toString i.toInt
  | .predicate _ => "<predicate>"

/-- The text of a list of steps. -/
def listText (steps : List Step) : String := Text.bracket (steps.map text)

end Step

end DocPath
