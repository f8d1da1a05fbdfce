import HamlTemplate.Proofs.Completeness

/-!
# Code that grows by lines

Code that goes on over several lines is scanned from its beginning again with each line that is
added to it. What the scan has found stays: a step only ever adds to the skeleton, so the skeleton
of a state is the beginning of all that come later, and a scan comes through the end of each line in
the very state that it has where the code ends there. It need not be so when code grows by other
characters, because a question mark or a slash is read for what follows it.
-/

namespace HamlTemplate

open Unicode

namespace CodeScan

variable {s t u : CodeScan}

/-- The skeleton of the second state goes on where that of the first one ends. -/
def Grows (s t : CodeScan) : Prop := s.skeleton.toText <+: t.skeleton.toText

theorem Grows.refl (s : CodeScan) : s.Grows s := List.prefix_rfl

theorem Grows.trans (first : s.Grows t) (second : t.Grows u) : s.Grows u :=
  List.IsPrefix.trans first second

/-- A step adds to the skeleton and takes nothing away from it. -/
theorem grows_step (s : CodeScan) (c : Char) (rest : Text) : s.Grows (s.step c rest) := by
  rw [Grows]
  obtain same | ⟨d, same⟩ := (step_spec s c rest).skeleton
  · have kept := congrArg Skeleton.toText same
    exact ⟨[], (List.append_nil _).trans kept.symm⟩
  · rw [same, Skeleton.toText_push]
    exact List.prefix_append _ _

theorem grows_run (s : CodeScan) (text : Text) : s.Grows (s.run text) := by
  induction text generalizing s with
  | nil => exact Grows.refl s
  | cons c rest ih => exact (grows_step s c rest).trans (ih _)

end CodeScan

/-- More lines behind a text revise nothing of its scan. The skeleton of the text is the beginning
of the longer one, and the bracket that closes the first one is the same. The end of the text and a
line feed behind it are alike to the scan: it comes there in the same state, and reads the further
lines from a state in which no escape and no comment is pending, nothing else is open than at the
end of the text, and the skeleton has at most got the line feed. -/
theorem scan_append_lineFeed (text more : Text) :
    text.scan.skeleton.toText <+: (text ++ '\n' :: more).scan.skeleton.toText ∧
      (∀ n, text.bracketedBytes? = some n → (text ++ '\n' :: more).bracketedBytes? = some n) ∧
      CodeScan.runBefore {} text ('\n' :: more) = text.scan ∧
      ∃ skeleton, (skeleton = text.scan.skeleton ∨ skeleton = text.scan.skeleton.push '\n') ∧
        (text ++ '\n' :: more).scan =
          CodeScan.run
            { text.scan with skeleton, read := text.length + 1, mode := .reading } more := by
  have onward : (text ++ '\n' :: more).scan = text.scan.run ('\n' :: more) :=
    Text.scan_append Text.isWhiteSpace_of_head?_lineFeed
  have quoted : text.scan.Quoted := CodeScan.quoted_start.run text
  have read : text.scan.read = text.length := by
    rw [Text.scan, CodeScan.read_run, Nat.zero_add]
  obtain ⟨skeleton, kept, state⟩ :=
    CodeScan.step_of_isWhiteSpace quoted (c := '\n') (by decide) more
  refine ⟨?_, ?_, ?_, skeleton, kept, ?_⟩
  · rw [onward]
    exact CodeScan.grows_run _ _
  · -- The bracket stays where it is before any text, with or without the line feed.
    intro n closed
    exact Text.bracketedBytes?_append closed _
  · exact CodeScan.runBefore_white Text.isWhiteSpace_of_head?_lineFeed {} text
  · rw [onward, CodeScan.run_cons, state, read]
    simp

/-- A question mark at the end of a line is not read for the bracket on the next line. -/
theorem scan_append_lineFeed_question :
    Text.bracketedBytes? "\x7ba: ?b\x7d ?".toList = some 7 ∧
      Text.bracketedBytes? ("\x7ba: ?b\x7d ?".toList ++ '\n' :: "(".toList) = some 7 ∧
      "\x7ba: _\x7d ?".toList <+:
        (Text.scan ("\x7ba: ?b\x7d ?".toList ++ '\n' :: "(".toList)).skeleton.toText := by
  have closed : Text.bracketedBytes? "\x7ba: ?b\x7d ?".toList = some 7 := by decide +kernel
  have skeleton : (Text.scan "\x7ba: ?b\x7d ?".toList).skeleton.toText =
      "\x7ba: _\x7d ?".toList := by
    decide +kernel
  have unrevised := scan_append_lineFeed "\x7ba: ?b\x7d ?".toList "(".toList
  exact ⟨closed, unrevised.2.1 7 closed, skeleton ▸ unrevised.1⟩

example : (Text.scan "a ?".toList).skeleton = .ofText "a ?".toList ∧
    (Text.scan "a ?(".toList).skeleton = .ofText "a _".toList := by
  decide +kernel

end HamlTemplate
