/-!
# Kinds of nodes

The kinds of nodes of a template, with the words that messages use for them.
-/

namespace HamlTemplate

inductive NodeKind where
  | doctype
  | comment
  | hamlComment
  | text
  | element
  | script
  | silentScript
  | filter
  deriving DecidableEq, Repr

/-- What messages call a kind of node. -/
def NodeKind.label : NodeKind → String
  | .doctype => "doctype"
  | .comment => "comment"
  | .hamlComment => "Haml comment"
  | .text => "plain text"
  | .element => "element"
  | .script => "script"
  | .silentScript => "silent script"
  | .filter => "filter"

end HamlTemplate
