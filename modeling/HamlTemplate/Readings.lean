import HamlTemplate.ElementLine

/-!
# What readings are made of

What is read behind the first line of a construct is put together from two things: gathering lines,
and failing at the last line read. A property of both that sequences of readings keep is a property
of every reading of an element and of a script. That readings only go forward is one.
-/

namespace HamlTemplate

theorem Element.site_of_declaration {text : Text} {fault : Fault}
    (h : declaration text = .error fault) : fault.site = .content := by
  unfold declaration at h
  split at h
  · cases h
    rfl
  · simp only at h
    split at h
    · cases h
      rfl
    · cases h

namespace Reading

/-- The ways in which code goes on over lines: what these are tidied by, and the fault if the
source ends before the code does. -/
inductive Gathers : (Text → Text) → Fault → Prop
  | statement : Gathers Text.trimEnd .unterminatedCode
  | attributes : Gathers Text.trim .unmatchedAttributes

/-- A property of failing that sequences of readings keep. A reading only meets faults of the
content that it reads. -/
structure Sequenced (P : (α : Type) → Reading α → Prop) : Prop where
  pure : ∀ {α : Type} (a : α), P α (pure a)
  bind : ∀ {α β : Type} {action : Reading α} {next : α → Reading β},
    P α action → (∀ a, P β (next a)) → P β (action >>= next)
  fail : ∀ {α : Type} (fault : Fault), fault.site = .content → P α (fail fault)

/-- Such a property that gathering lines has as well. -/
structure Closed (P : (α : Type) → Reading α → Prop) : Prop extends Sequenced P where
  gather : ∀ wanted {tidy fault}, Gathers tidy fault →
    ∀ text, P Gathered (gather wanted tidy fault text)

variable {P : (α : Type) → Reading α → Prop}

/-- The lines of an attribute block are all that is gathered for attributes. -/
theorem Sequenced.attributes? (sequenced : Sequenced P)
    (gathers : ∀ wanted text, P Gathered (gather wanted Text.trim .unmatchedAttributes text))
    (text : Text) : P (Option Text × Text) (attributes? text) := by
  have block : P (Text × Text) (attributes text) :=
    sequenced.bind (gathers _ _) fun _ => sequenced.pure _
  unfold Reading.attributes?
  split
  · exact sequenced.bind block fun _ => sequenced.pure _
  · exact sequenced.pure _

namespace Closed

theorem statement (closed : Closed P) (code : Text) : P Statement (statement code) :=
  closed.bind (closed.gather _ .statement _) fun _ => closed.pure _

theorem script (closed : Closed P) (afterMark : Text) : P Text (script afterMark) := by
  unfold Reading.script
  split
  · exact closed.fail _ rfl
  · exact closed.bind (closed.statement _) fun _ => closed.pure _

theorem attributes? (closed : Closed P) (text : Text) :
    P (Option Text × Text) (attributes? text) :=
  closed.toSequenced.attributes? (fun _ _ => closed.gather _ .attributes _) text

theorem elementTail (closed : Closed P) (text : Text) : P ElementTail (elementTail text) := by
  unfold Reading.elementTail
  split
  · split
    · exact closed.pure _
    · exact closed.fail _ rfl
  · exact closed.bind (closed.script _) fun _ => closed.pure _
  · exact closed.pure _

theorem element (closed : Closed P) (text : Text) : P Element (element text) := by
  unfold Reading.element
  split
  · rename_i failed
    exact closed.fail _ (Element.site_of_declaration failed)
  · exact closed.bind (closed.attributes? _) fun _ =>
      closed.bind (closed.elementTail _) fun _ => closed.pure _

end Closed

/-- All readings go forward. -/
theorem closed_forward : Closed fun _ action => Forward id action where
  pure := forward_pure
  bind first rest := first.bind rest
  fail _ _ _ := .refl _
  gather wanted _ _ _ text := forward_gather wanted _ _ text

end Reading

end HamlTemplate
