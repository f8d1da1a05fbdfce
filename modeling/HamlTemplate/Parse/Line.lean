import HamlTemplate.Content
import HamlTemplate.Parse.State
import HamlTemplate.Readings

/-!
# Taking in lines

A line goes to the filter block that is being collected. If there is none, or the line has just
ended it, the indentation of the line gives it its place in the outline and its content says
what is put there.
-/

namespace HamlTemplate

namespace Parsing

/-- Adds the node of a filter block that is over. -/
def pushOutput (action : EStateM SourceError Collector (Option Node)) : Parsing Unit := do
  if let some node ← collecting action then push node

/-- Adds the node that a line with the given content begins. A filter block is added only when it
is over. -/
def add (width number : Nat) : Content → Parsing Unit
  | .element text => do
    push (.block number (.element (← reading (Reading.element text))) [])
  | .doctype text => push (.leaf number (.doctype (Text.trim text)))
  | .brokenDoctype => reading (Reading.fail .invalidDoctype)
  | .comment text => push (.block number (.comment (Text.trim text)) [])
  | .script afterMark => do
    push (.block number (.script (← reading (Reading.script afterMark)) false) [])
  | .silentScript afterMark => do
    push (.block number (.silentScript (← reading (Reading.script afterMark)) false) [])
  | .hamlComment => push (.block number .hamlComment [])
  | .filter text => collecting (Collector.start text width number)
  | .plain text => push (.leaf number (.text text))

/-- Places a line by its indentation and adds what it is. -/
def placeLine (line : Line) : Parsing Unit := do
  match ← following (Tracker.process Outline.handler line) with
  | .blank => pure ()
  | .verbatim => push (.leaf line.number (.text line.text))
  | .structural => add line.width line.number (Content.ofText line.text)

/-- Offers a line to the filter block that is being collected. In a Haml comment there is none. -/
def offerLine (registry : Registry) (line : Line) : Parsing Unit := do
  let s ← get
  if s.collector.isSome && !s.outline.inHamlComment then
    pushOutput (Collector.offer registry line)

/-- Takes in one line: a filter block that is being collected has the first claim to it. -/
def acceptLine (registry : Registry) (line : Line) : Parsing Unit := do
  offerLine registry line
  let s ← get
  if s.collector.isNone then placeLine line

def finish (registry : Registry) : Parsing Unit := do
  pushOutput (Collector.finish registry)
  following (Tracker.finish Outline.handler)

private theorem forward_pushOutput (action : EStateM SourceError Collector (Option Node)) :
    Forward ParseState.cursor (pushOutput action) := by
  refine (forward_collecting action).bind fun node? => ?_
  split
  · exact forward_push _
  · exact forward_pure _

private theorem forward_add (width number : Nat) (content : Content) :
    Forward ParseState.cursor (add width number content) := by
  cases content with
  | element text =>
    exact (forward_reading (Reading.closed_forward.element text)).bind fun _ => forward_push _
  | script afterMark =>
    exact (forward_reading (Reading.closed_forward.script afterMark)).bind fun _ => forward_push _
  | silentScript afterMark =>
    exact (forward_reading (Reading.closed_forward.script afterMark)).bind fun _ => forward_push _
  | brokenDoctype => exact forward_reading (Reading.closed_forward.fail _ rfl)
  | filter text => exact forward_collecting _
  | doctype | comment | hamlComment | plain => exact forward_push _

private theorem forward_placeLine (line : Line) : Forward ParseState.cursor (placeLine line) := by
  refine (forward_following _).bind fun role => ?_
  cases role with
  | blank => exact forward_pure _
  | verbatim => exact forward_push _
  | structural => exact forward_add _ _ _

private theorem forward_offerLine (registry : Registry) (line : Line) :
    Forward ParseState.cursor (offerLine registry line) := by
  refine forward_get.bind fun s => ?_
  split
  · exact forward_pushOutput _
  · exact forward_pure _

/-- Taking in a line may read further lines and never goes back. -/
theorem forward_acceptLine (registry : Registry) (line : Line) :
    Forward ParseState.cursor (acceptLine registry line) := by
  refine (forward_offerLine registry line).bind fun _ => forward_get.bind fun s => ?_
  split
  · exact forward_placeLine _
  · exact forward_pure _

end Parsing

end HamlTemplate
