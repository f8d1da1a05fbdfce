import HamlTemplate.Fragment
import HamlTemplate.Text.Quoted

/-!
# Registries of filters

A filter turns the body of its block into a fragment. A registry knows filters by name, in the
order of their names, and holds one filter for a name: the last one registered.
-/

namespace HamlTemplate

/-- What is made of the body of a filter block. -/
abbrev Filter := Text → Fragment

namespace Filter

def plain : Filter := fun body => .static (body ++ ['\n'])

/-- The body as code. -/
def ruby : Filter := fun body => .multi [.code body, .newline]

/-- The body as output, between the lines of a tag. -/
private def tagged (tag : Text) : Filter := fun body =>
  .static ('<' :: tag ++ ">\n".toList ++ body ++ "\n</".toList ++ tag ++ ">\n".toList)

def javascript : Filter := tagged "script".toList

def css : Filter := tagged "style".toList

end Filter

structure Registry where
  /-- The names in ascending order, each with its filter. -/
  entries : List (Text × Filter) := []

namespace Registry

/-- Puts an entry in its place, where it replaces one of the same name. -/
def insertEntry (name : Text) (filter : Filter) : List (Text × Filter) → List (Text × Filter)
  | [] => [(name, filter)]
  | (other, f) :: rest =>
    if name = other then (name, filter) :: rest
    else if name < other then (name, filter) :: (other, f) :: rest
    else (other, f) :: insertEntry name filter rest

/-- Registers a filter under a name, in place of any other under that name. -/
def register (r : Registry) (name : Text) (filter : Filter) : Registry :=
  ⟨insertEntry name filter r.entries⟩

def lookup? (r : Registry) (name : Text) : Option Filter := r.entries.lookup name

def contains (r : Registry) (name : Text) : Bool := (r.lookup? name).isSome

def builtinFilters : List (Text × Filter) :=
  [("plain".toList, .plain), ("ruby".toList, .ruby), ("javascript".toList, .javascript),
    ("css".toList, .css)]

def builtins : Registry :=
  builtinFilters.foldl (fun r entry => r.register entry.1 entry.2) {}

/-- What a filter makes of a body, if it is registered. -/
def compile? (r : Registry) (name body : Text) : Option Fragment :=
  (r.lookup? name).map fun filter => filter body

/-- The registry in one line: the quoted names in ascending order. -/
def describe (r : Registry) : Text :=
  "FilterRegistry \x7b filters: [".toList ++
    List.intercalate ", ".toList (r.entries.map fun entry => Text.quoted entry.1) ++
    "] \x7d".toList

end Registry

end HamlTemplate
