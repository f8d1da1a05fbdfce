import HamlTemplate.Command
import HamlTemplate.Proofs.WellFormed

/-!
# Nodes of a listing

A listing goes through all nodes of a document, each before those that belong to it, and writes one
line for each. Nothing that it quotes, no name and no number holds a line feed. Only the code of an
attribute block is written as it is, so that a block of several lines takes as many of the listing.
-/

namespace HamlTemplate

open Unicode

/-! ### What a listing goes through -/

namespace Node

mutual

/-- A node and all nodes below it, each with its depth. The content of a node's own line comes
before the nodes nested in it. -/
def leveled (depth : Nat) : Node → List (Nat × Node)
  | leaf line l => [(depth, leaf line l)]
  | block line head nested =>
    (depth, block line head nested) ::
      ((head.inline? line).toList.map fun child => (depth + 1, child)) ++
        leveledAll (depth + 1) nested

def leveledAll (depth : Nat) : List Node → List (Nat × Node)
  | [] => []
  | node :: nodes => leveled depth node ++ leveledAll depth nodes

end

def listed (entry : Nat × Node) : Text := listingLine entry.1 entry.2.line entry.2.summary

theorem leveledAll_append (depth : Nat) (first second : List Node) :
    leveledAll depth (first ++ second) = leveledAll depth first ++ leveledAll depth second := by
  induction first with
  | nil => rfl
  | cons node first ih => simp only [List.cons_append, leveledAll, ih, List.append_assoc]

theorem leveled_of_inline? {node child : Node} (h : node.inline? = some child) (depth : Nat) :
    leveled depth child = [(depth, child)] := by
  obtain ⟨code, rfl⟩ | ⟨content, rfl⟩ := eq_of_inline? h <;> rfl

/-- The children of a node come right behind it, and are one level deeper. -/
theorem leveled_eq (depth : Nat) (node : Node) :
    leveled depth node = (depth, node) :: leveledAll (depth + 1) (node.children?.getD []) := by
  cases node with
  | leaf line l => rfl
  | block line head nested =>
    rw [leveled, children?, Option.getD_some, leveledAll_append]
    cases inline : head.inline? line with
    | none => rfl
    | some child =>
      have own : (block line head nested).inline? = some child := inline
      simp only [Option.toList_some, leveledAll, leveled_of_inline? own]
      rfl

theorem inlineListing_eq (depth line : Nat) (head : Head) :
    inlineListing depth line head =
      ((head.inline? line).toList.map fun child => (depth, child)).flatMap listed := by
  rw [inlineListing]
  cases inline : head.inline? line with
  | none => rfl
  | some child =>
    have own : (block line head []).inline? = some child := inline
    have same : child.line = line := line_of_inline? own
    rw [Option.toList_some, List.map_singleton, List.flatMap_singleton, listed, same]

/-- A listing is the lines for all nodes, in their order. -/
theorem listingAll_eq (depth : Nat) (nodes : List Node) :
    listingAll depth nodes = (leveledAll depth nodes).flatMap listed := by
  induction nodes using forest_induction generalizing depth with
  | nil => rfl
  | leaf line l rest ih =>
    rw [listingAll, listing, ih, leveledAll, leveled, List.flatMap_append, List.flatMap_singleton]
    rfl
  | block line head nested rest inner outer =>
    rw [listingAll, listing, inlineListing_eq, inner, outer, leveledAll, leveled,
      List.flatMap_append, List.flatMap_append, List.flatMap_cons]
    rfl

/-- Without their depths, they are the nodes in document order, each with the content of its own
line behind it. -/
theorem map_snd_leveledAll (depth : Nat) (nodes : List Node) :
    (leveledAll depth nodes).map Prod.snd =
      (preorderAll nodes).flatMap fun node => node :: node.inline?.toList := by
  induction nodes using forest_induction generalizing depth with
  | nil => rfl
  | leaf line l rest ih =>
    rw [leveledAll, leveled, List.map_append, ih, preorderAll_cons, List.flatMap_append]
    rfl
  | block line head nested rest inner outer =>
    rw [leveledAll, leveled, List.map_append, List.map_append, inner, outer, preorderAll_cons,
      preorder, List.flatMap_append, List.flatMap_cons, List.map_cons, List.map_map]
    simp [inline?, Function.comp_def]

end Node

/-- The nodes that the listing of a document shows, each with its depth. -/
def Document.leveled (d : Document) : List (Nat × Node) := Node.leveledAll 0 d.roots

namespace Document

theorem listing_eq (d : Document) : d.listing = d.leveled.flatMap Node.listed :=
  Node.listingAll_eq 0 d.roots

theorem map_snd_leveled (d : Document) : d.leveled.map Prod.snd = d.nodes :=
  Node.map_snd_leveledAll 0 d.roots

end Document

/-! ### Line feeds -/

/-- A number is written in digits. -/
private theorem lineFeed_notMem_toDigits {base : Nat} (positional : 1 < base) (n : Nat) :
    '\n' ∉ Nat.toDigits base n := by
  induction n using Nat.strongRecOn with
  | ind n ih =>
    rw [Nat.toDigits_eq_if positional]
    split
    · simp
    · rename_i longer
      have shorter := ih (n / base) (Nat.div_lt_self (by omega) positional)
      simp [shorter]

namespace Text

/-- A line feed is escaped, and no other escape holds one. -/
private theorem lineFeed_notMem_escapeChar (c : Char) : '\n' ∉ escapeChar c := by
  have digits : '\n' ∉ Nat.toDigits 16 c.toNat := lineFeed_notMem_toDigits (by decide) c.toNat
  by_cases feed : c = '\n'
  · subst feed
    decide
  · unfold escapeChar
    repeat' split
    all_goals simp [Ne.symm feed, digits]

private theorem lineFeed_notMem_quoted (text : Text) : '\n' ∉ text.quoted := by
  have escaped : '\n' ∉ text.flatMap escapeChar := by
    intro member
    obtain ⟨c, _, inside⟩ := List.mem_flatMap.mp member
    exact lineFeed_notMem_escapeChar c inside
  simp [quoted, escaped]

end Text

private theorem notMem_intercalate {c : Char} {separator : Text} {texts : List Text}
    (between : c ∉ separator) (inside : ∀ text ∈ texts, c ∉ text) :
    c ∉ List.intercalate separator texts := by
  induction texts with
  | nil => nofun
  | cons text texts ih =>
    obtain ⟨first, rest⟩ := List.forall_mem_cons.mp inside
    cases texts with
    | nil =>
      rw [List.intercalate_singleton]
      exact first
    | cons next texts =>
      rw [List.intercalate_cons_cons]
      exact List.not_mem_append (List.not_mem_append first between) (ih rest)

namespace Fragment

mutual

theorem lineFeed_notMem_summary (fragment : Fragment) : '\n' ∉ fragment.summary := by
  cases fragment with
  | static text | code text =>
    exact List.not_mem_append (by decide) (Text.lineFeed_notMem_quoted text)
  | multi parts =>
    have inside : '\n' ∉ List.intercalate ", ".toList (summaries parts) :=
      notMem_intercalate (by decide) (lineFeed_notMem_summaries parts)
    exact List.not_mem_append (List.not_mem_cons_of_ne_of_not_mem (by decide) inside) (by decide)
  | newline => decide

theorem lineFeed_notMem_summaries (parts : List Fragment) :
    ∀ text ∈ summaries parts, '\n' ∉ text := by
  cases parts with
  | nil => nofun
  | cons part parts =>
    exact List.forall_mem_cons.mpr ⟨lineFeed_notMem_summary part, lineFeed_notMem_summaries parts⟩

end

end Fragment

/-- The code in the attribute block of an element. Other nodes have none. -/
def Node.attributeCode : Node → Text
  | block _ (.element e) _ => e.attributes?.getD []
  | _ => []

private theorem lineFeed_notMem_midBlockSummary (midBlock : Bool) :
    '\n' ∉ midBlockSummary midBlock := by
  cases midBlock <;> decide

theorem Text.IsName.lineFeed_notMem {name : Text} (h : name.IsName) : '\n' ∉ name :=
  fun member => absurd (h.2 '\n' member) (by decide)

/-- The names of an element hold no line feed, and neither do its marks. -/
theorem Element.count_summary {e : Element} (names : e.HasNames) :
    e.summary.count '\n' = (e.attributes?.getD []).count '\n' := by
  have marked : ∀ (mark : Char) (given : List Text), '\n' ≠ mark →
      (∀ name ∈ given, name.IsName) → '\n' ∉ given.flatMap (mark :: ·) := by
    intro mark given other named member
    obtain ⟨name, within, inside⟩ := List.mem_flatMap.mp member
    obtain same | inside := List.mem_cons.mp inside
    · exact other same
    · exact (named name within).lineFeed_notMem inside
  have tag := List.not_mem_cons_of_ne_of_not_mem (a := '\n') (y := '%') (by decide)
    names.tag.lineFeed_notMem
  have declared := List.not_mem_append
    (List.not_mem_append tag (marked '#' e.ids (by decide) names.ids))
    (marked '.' e.classes (by decide) names.classes)
  have flag : ∀ (given : Prop) [Decidable given] (mark : Char), '\n' ≠ mark →
      (if given then [mark] else []).count '\n' = 0 := by
    intro given _ mark other
    split
    · exact List.count_eq_zero.mpr (List.not_mem_cons_of_ne_of_not_mem other List.not_mem_nil)
    · rfl
  rw [summary, List.count_append, List.count_append, List.count_append, List.count_append,
    List.count_eq_zero.mpr declared, flag _ '<' (by decide), flag _ '>' (by decide),
    flag _ '/' (by decide)]
  cases e.attributes? with
  | none => rfl
  | some code => simp

/-- A summary holds the line feeds of the attribute block and no others. -/
theorem Node.count_summary {registry : Registry} {node : Node} (well : node.BeginsWell registry) :
    node.summary.count '\n' = node.attributeCode.count '\n' := by
  cases node with
  | leaf line l =>
    refine List.count_eq_zero.mpr ?_
    cases l with
    | doctype content | text content =>
      exact List.not_mem_append (by decide) (Text.lineFeed_notMem_quoted content)
    | filter name output =>
      have word : '\n' ∉ name := fun member => absurd (well.2.2 '\n' member) (by decide)
      exact List.not_mem_append (List.not_mem_cons_of_ne_of_not_mem (by decide) word)
        (List.not_mem_cons_of_ne_of_not_mem (by decide) output.lineFeed_notMem_summary)
  | block line head nested =>
    cases head with
    | element e => exact Element.count_summary well.1
    | comment text =>
      exact List.count_eq_zero.mpr
        (List.not_mem_append (by decide) (Text.lineFeed_notMem_quoted text))
    | hamlComment =>
      have label : '\n' ∉ "haml-comment".toList := by decide
      exact List.count_eq_zero.mpr label
    | script code midBlock | silentScript code midBlock =>
      refine List.count_eq_zero.mpr (List.not_mem_append ?_ ?_)
      · exact List.not_mem_append (by decide) (Text.lineFeed_notMem_quoted code)
      · exact lineFeed_notMem_midBlockSummary midBlock

/-- A line of a listing ends in a line feed and holds those of the summary. -/
theorem count_listingLine (depth line : Nat) (summary : Text) :
    (listingLine depth line summary).count '\n' = summary.count '\n' + 1 := by
  have number : '\n' ∉ List.leftpad 4 ' ' (Nat.toDigits 10 line) :=
    List.not_mem_append (by simp [List.mem_replicate]) (lineFeed_notMem_toDigits (by decide) line)
  have indented := List.not_mem_append (List.not_mem_append number (t := ": ".toList) (by decide))
    (t := List.replicate (2 * depth) ' ') (by simp [List.mem_replicate])
  rw [listingLine, List.count_append, List.count_append, List.count_eq_zero.mpr indented,
    Nat.zero_add]
  rfl

theorem count_flatMap_listed {entries : List (Nat × Node)}
    (summaries : ∀ entry ∈ entries,
      entry.2.summary.count '\n' = entry.2.attributeCode.count '\n') :
    (entries.flatMap Node.listed).count '\n' =
      entries.length + (entries.flatMap fun entry => entry.2.attributeCode).count '\n' := by
  induction entries with
  | nil => rfl
  | cons entry entries ih =>
    obtain ⟨first, rest⟩ := List.forall_mem_cons.mp summaries
    rw [List.flatMap_cons, List.count_append, ih rest, Node.listed, count_listingLine, first,
      List.length_cons, List.flatMap_cons, List.count_append]
    omega

namespace Document

variable {registry : Registry} {source : Text} {d : Document}

theorem count_summary_of_mem_nodes (h : parse registry source = .ok d) {node : Node}
    (member : node ∈ d.nodes) : node.summary.count '\n' = node.attributeCode.count '\n' :=
  Node.count_summary (beginsWell_of_mem_nodes h member)

/-- A listing has a line for each node, and one more for each line feed in an attribute block. -/
theorem count_listing (h : parse registry source = .ok d) :
    d.listing.count '\n' =
      d.nodes.length + (d.nodes.flatMap Node.attributeCode).count '\n' := by
  rw [listing_eq, count_flatMap_listed, ← map_snd_leveled, List.length_map, List.flatMap_map]
  intro entry member
  refine count_summary_of_mem_nodes h ?_
  rw [← map_snd_leveled]
  exact List.mem_map_of_mem member

end Document

/-- A file that holds a template is listed if the template can be parsed. -/
theorem Command.run_ast {source : String} {d : Document}
    (h : Document.parse .builtins source.toList = .ok d) (path : String) :
    run .ast path (some source.toUTF8) = { output := String.ofList d.listing } := by
  have decoded : String.fromUTF8? source.toUTF8 = some source := dif_pos source.isValidUTF8
  simp only [run, decoded, h, report]

/-- The listing of a template that can be parsed goes through the nodes in document order, each with
its children right behind it and one level deeper, and writes the line number, the depth and the
summary of each. A summary holds no line feed but those of an attribute block, so each node is shown
in one line unless its attribute block goes over several. -/
theorem listing_of_parse {source : String} {d : Document}
    (h : Document.parse .builtins source.toList = .ok d) (path : String) :
    Command.run .ast path (some source.toUTF8) =
        { output := String.ofList
            (d.leveled.flatMap fun (depth, node) => listingLine depth node.line node.summary) } ∧
      d.leveled.map Prod.snd = d.nodes ∧
      (∀ depth node, Node.leveled depth node =
        (depth, node) :: Node.leveledAll (depth + 1) (node.children?.getD [])) ∧
      (∀ node ∈ d.nodes, node.summary.count '\n' = node.attributeCode.count '\n') ∧
      d.listing.count '\n' =
        d.nodes.length + (d.nodes.flatMap Node.attributeCode).count '\n' ∧
      (d.listing.count '\n' = d.nodes.length ↔ ∀ node ∈ d.nodes, '\n' ∉ node.attributeCode) := by
  have lines := Document.count_listing h
  refine ⟨?_, d.map_snd_leveled, Node.leveled_eq,
    fun _ => Document.count_summary_of_mem_nodes h, lines, ?_⟩
  · rw [Command.run_ast h, Document.listing_eq]
    rfl
  · rw [lines, Nat.add_eq_left, List.count_eq_zero, List.mem_flatMap]
    constructor
    · intro none node member inside
      exact none ⟨node, member, inside⟩
    · rintro none ⟨node, member, inside⟩
      exact none node member inside

/-- An attribute block of two lines and a filter whose output has a line feed, which is quoted. -/
theorem listing_of_parse_nested :
    ∃ d, Document.parse .builtins "%p\x7ba: 1,\n  b\x7d x\n/\n  :plain\n    y\n".toList = .ok d ∧
      (Command.run .ast "t.haml"
          (some "%p\x7ba: 1,\n  b\x7d x\n/\n  :plain\n    y\n".toUTF8)).output =
        "   1: %p\x7ba: 1,\nb\x7d\n   1:   text \x22x\x22\n   3: comment \x22\x22\n" ++
          "   4:   :plain static \x22y\\n\x22\n" ∧
      d.leveled.map Prod.snd = d.nodes ∧ d.nodes.length = 4 ∧ d.listing.count '\n' = 5 := by
  have parsed : Document.parse .builtins
      "%p\x7ba: 1,\n  b\x7d x\n/\n  :plain\n    y\n".toList = .ok ⟨5, [
        .block 1 (.element
          { tag := ['p'], attributes? := some "a: 1,\nb".toList, tail := .text ['x'] }) [],
        .block 3 (.comment []) [.leaf 4 (.filter "plain".toList (.static "y\n".toList))]]⟩ := by
    decide +kernel
  have listed := listing_of_parse parsed "t.haml"
  refine ⟨_, parsed, ?_, listed.2.1, rfl, ?_⟩
  · rw [listed.1]
    decide +kernel
  · rw [listed.2.2.2.2.1]
    decide +kernel

/-- A single node that is shown in two lines. -/
theorem exists_listing_of_two_lines :
    ∃ d, Document.parse .builtins "%p\x7ba: 1,\n  b: 2\x7d\n".toList = .ok d ∧
      (Command.run .ast "t.haml" (some "%p\x7ba: 1,\n  b: 2\x7d\n".toUTF8)).output =
        "   1: %p\x7ba: 1,\nb: 2\x7d\n" ∧
      d.nodes.length = 1 ∧ d.listing.count '\n' = 2 := by
  have parsed : Document.parse .builtins "%p\x7ba: 1,\n  b: 2\x7d\n".toList = .ok ⟨2, [
      .block 1 (.element { tag := ['p'], attributes? := some "a: 1,\nb: 2".toList }) []]⟩ := by
    decide +kernel
  refine ⟨_, parsed, ?_, rfl, by decide +kernel⟩
  rw [Command.run_ast parsed]
  decide +kernel

end HamlTemplate
