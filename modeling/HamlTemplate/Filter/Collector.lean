import HamlTemplate.Filter.Block

/-!
# Collecting filter blocks

The collector holds the filter block whose body is being read, if there is one. A block is over
when a line ends it or the collector is told to finish. It is over then even if its filter is
not registered.
-/

namespace HamlTemplate

/-- The filter block that is being collected, if any. -/
abbrev Collector := Option FilterBlock

namespace Collector

/-- The width beyond which lines belong to the block. -/
def baseWidth? (c : Collector) : Option Nat := c.map FilterBlock.baseWidth

/-- Starts a block. A text that is no filter line leaves everything as it is. -/
def start (text : Text) (width line : Nat) : EStateM SourceError Collector Unit := fun c =>
  match FilterBlock.start text width line with
  | .ok block => .ok () (some block)
  | .error e => .error e c

def finish (registry : Registry) : EStateM SourceError Collector (Option Node) := fun c =>
  match c with
  | none => .ok none none
  | some block =>
    match block.finish registry with
    | .ok node => .ok (some node) none
    | .error e => .error e none

/-- Offers a line to the block, if there is one. The line is added to the body, or it ends the
block and is still to be placed. -/
def offer (registry : Registry) (line : Line) : EStateM SourceError Collector (Option Node) :=
  fun c =>
    match c with
    | none => .ok none none
    | some block =>
      if block.endsAt line then finish registry c else .ok none (some (block.push line))

end Collector

end HamlTemplate
