/-
# Handoff.Proofs.Markup.Outline — the tree that a body spells out

The lines of a body are written around a recursive call, so that they nest is true of the writer. Here it
is true of the text: a reader that knows lines only as texts, and keeps a stack of the elements that are
still open, gets through every body, finds at each closing line the element that it closes, with the same
name and the same margin, and ends with the tag tree, cut off below the instances.
-/

import Handoff.Proofs.Markup.Placed
import Handoff.Proofs.Markup.Reading
import Handoff.Proofs.Tag.Definition
import Handoff.Proofs.Tag.Outline
import Handoff.Proofs.Tag.Shown
import Handoff.Proofs.Tag.Source

namespace Handoff.Markup

variable {dialect : Dialect} {level : Nat}

/-! ## The reader -/

/-- An element that is still open: the line that opened it, and its elder siblings. -/
structure Frame where
  line : String
  elders : List (Outline String)

/-- What was read: the elements that are complete in the innermost open element, and the open ones, the
innermost first. -/
structure Progress where
  done : List (Outline String) := []
  pending : List Frame := []

def Progress.add (s : Progress) (os : List (Outline String)) : Progress :=
  { s with done := s.done ++ os }

/-- Reads one line. A closing line has to meet an open element of its name and its margin. -/
def readLine (s : Progress) (line : String) : Option Progress :=
  match reading line with
  | .leaf => some (s.add [.node line []])
  | .opening _ => some ⟨[], ⟨line, s.done⟩ :: s.pending⟩
  | .closing name =>
    match s.pending with
    | [] => none
    | frame :: pending =>
      if reading frame.line = .opening name ∧ margin frame.line = margin line then
        some ⟨frame.elders ++ [.node frame.line s.done], pending⟩
      else none

/-- Reads all lines, after which no element may be open. -/
def readOutlines (ls : List String) : Option (List (Outline String)) :=
  (ls.foldlM readLine {}).bind fun s => if s.pending.isEmpty then some s.done else none

theorem Progress.add_add (s : Progress) (os os' : List (Outline String)) :
    (s.add os).add os' = s.add (os ++ os') := by
  rw [add, add, add, List.append_assoc]

/-! ## Lines of a tag -/

theorem level_firstLine (t : Tag) : (firstLine dialect level t).level = level := by
  rw [firstLine, leafLine]
  split_ifs <;> rfl

/-- What is below an instance has no part in its line. -/
theorem firstLine_prune (t : Tag) : firstLine dialect level t.prune = firstLine dialect level t := by
  obtain ⟨head, children⟩ := t
  rw [Tag.prune, Tag.pruneList_eq_map, firstLine, firstLine]
  show (if head.isInstance then _ else _) = if head.isInstance then _ else _
  split
  · rfl
  · rw [List.isEmpty_map]

theorem lines_of_isOneLine {t : Tag} (h : isOneLine t) :
    lines dialect level t = [firstLine dialect level t] := by
  obtain ⟨head, children⟩ := t
  rw [lines, firstLine]
  by_cases hinstance : head.isInstance
  · rw [if_pos hinstance, if_pos hinstance]
  · have hleaf : children.isEmpty := (Bool.or_eq_true_iff.mp h).resolve_left hinstance
    rw [if_neg hinstance, if_neg hinstance, if_pos hleaf, if_pos hleaf]

/-- Any other tag has the lines of its children between its first and its last. -/
theorem lines_of_not_isOneLine {t : Tag} (h : ¬isOneLine t) :
    lines dialect level t = firstLine dialect level t ::
      (t.children.flatMap (lines dialect (level + 1)) ++ [lastLine dialect level t]) := by
  obtain ⟨head, children⟩ := t
  rw [isOneLine, Bool.or_eq_true, not_or] at h
  rw [lines, linesOfList_eq_flatMap, firstLine, if_neg h.1, if_neg h.2, if_neg h.1, if_neg h.2]
  rfl

/-! ## Readable trees -/

/-- A tree in which every tag that opens an element has no attributes. -/
def IsBare (t : Tag) : Prop :=
  ∀ u ∈ t.preorder, u.head.isInstance ∨ u.children = [] ∨ u.head.attributes = []

theorem isBare_child {t u : Tag} (h : IsBare t) (hu : u ∈ t.children) : IsBare u := by
  intro v hv
  exact h v (Tag.mem_preorder_of_mem_children hu hv)

theorem isBare_mk {head : Tag.Head} {children : List Tag}
    (htop : head.isInstance ∨ children = [] ∨ head.attributes = [])
    (hbelow : ∀ u ∈ children, IsBare u) : IsBare ⟨head, children⟩ := by
  intro v hv
  rcases Tag.mem_preorder_iff.mp hv with rfl | ⟨u, hu, hv⟩
  · exact htop
  · exact hbelow u hu v hv

/-- Only images have attributes of their own, and they have no children. -/
theorem isBare_of_build {root : SceneNode} {unit : LengthUnit} {detection : Detection}
    {start stop : Counter} {t : Tag} (h : Tag.build root unit detection start = (some t, stop)) :
    IsBare t := by
  intro u hu
  obtain ⟨p, hp⟩ := Tag.exists_at?_of_mem_preorder hu
  obtain ⟨m, c, -, hbuilt⟩ := Tag.of_buildIn_at h hp
  have hreflects := Tag.reflects_of_buildIn hbuilt
  by_cases himage : u.head.isImage
  · have hchildren := hreflects.children
    rw [if_pos himage] at hchildren
    exact .inr (.inl (List.map_eq_nil_iff.mp hchildren))
  · exact .inr (.inr (hreflects.unpacked himage).2)

/-- The children of a bare tree may be replaced by bare trees. -/
theorem isBare_map {head : Tag.Head} {children : List Tag} {g : Tag → Tag}
    (h : IsBare ⟨head, children⟩) (hg : ∀ u ∈ children, IsBare u → IsBare (g u)) :
    IsBare ⟨head, children.map g⟩ := by
  refine isBare_mk ?_ fun u hu => ?_
  · rw [List.map_eq_nil_iff]
    exact h ⟨head, children⟩ (Tag.self_mem_preorder _)
  · obtain ⟨child, hchild, rfl⟩ := List.mem_map.mp hu
    exact hg child hchild (isBare_child h hchild)

/-- Declared components give attributes to instances only. -/
theorem isBare_substitute {components : List UserComponent} {t : Tag} (h : IsBare t) :
    IsBare (Tag.substitute components t) := by
  induction t using Tag.induction_on_children with
  | step head children ih =>
    rcases Tag.substitute_cases components ⟨head, children⟩ with
      ⟨-, hsame⟩ | ⟨-, c, -, hnew⟩ | ⟨-, -, hsearched⟩
    · rwa [hsame]
    · -- What was put in has attributes, but it is an instance.
      rw [hnew]
      exact isBare_mk (.inl rfl) fun u hu => by cases hu
    · rw [hsearched]
      exact isBare_map h ih

theorem isBare_identify {components : List UserComponent} {t : Tag} (h : IsBare t) :
    IsBare (t.identify components) := by
  obtain ⟨head, children⟩ := t
  rw [Tag.identify_eq]
  exact isBare_map h fun u _ => isBare_substitute

theorem isReadable_firstLine {t : Tag} (h : IsBare t) : (firstLine dialect level t).form.IsReadable := by
  have hclean := isClean_elementOf dialect t.head
  have htop := h t (Tag.self_mem_preorder t)
  rw [firstLine, leafLine]
  split
  next => exact isClean_instanceElement t.head
  next hinstance =>
    split
    next => split <;> exact hclean
    next hleaf =>
      refine ⟨hclean, (htop.resolve_left hinstance).resolve_left fun hnil => ?_⟩
      exact hleaf (List.isEmpty_iff.mpr hnil)

/-! ## Reading a tree -/

/-- The labels of the outline that is read: the first lines. -/
def firstText (dialect : Dialect) (level : Nat) (t : Tag) : String :=
  (firstLine dialect level t).text

theorem margin_firstText (t : Tag) : margin (firstText dialect level t) = 4 + 2 * level := by
  rw [firstText, margin_text, level_firstLine]

theorem reading_firstText_of_isOneLine (dialect : Dialect) (level : Nat) {t : Tag} (h : IsBare t)
    (hleaf : isOneLine t) : reading (firstText dialect level t) = .leaf := by
  rw [firstText, reading_text (isReadable_firstLine h), firstLine, leafLine]
  by_cases hinstance : t.head.isInstance
  · rw [if_pos hinstance]
    rfl
  · rw [if_neg hinstance, if_pos ((Bool.or_eq_true_iff.mp hleaf).resolve_left hinstance)]
    split <;> rfl

theorem reading_firstText_of_not_isOneLine (dialect : Dialect) (level : Nat) {t : Tag} (h : IsBare t)
    (hopens : ¬isOneLine t) :
    reading (firstText dialect level t) = .opening (elementName dialect t.head) := by
  rw [firstText, reading_text (isReadable_firstLine h), firstLine_of_not_isOneLine hopens]
  rfl

/-- What is read from the lines of a tag. -/
def outlineOf (dialect : Dialect) (level : Nat) (t : Tag) : Outline String :=
  t.prune.outline (firstText dialect) level

theorem outlineOf_of_isOneLine {t : Tag} (h : isOneLine t) :
    outlineOf dialect level t = .node (firstText dialect level t) [] := by
  rw [outlineOf, Tag.outline_eq_node, firstText, firstLine_prune, firstText]
  obtain ⟨head, children⟩ := t
  rw [Tag.prune]
  rcases Bool.or_eq_true_iff.mp h with hinstance | hleaf
  · rw [if_pos hinstance, List.map_nil]
  · have hnil : children = [] := List.isEmpty_iff.mp hleaf
    rw [hnil, Tag.pruneList, ite_self, List.map_nil]

theorem outlineOf_of_not_isOneLine {t : Tag} (h : ¬isOneLine t) :
    outlineOf dialect level t =
      .node (firstText dialect level t) (t.children.map (outlineOf dialect (level + 1))) := by
  rw [outlineOf, Tag.outline_eq_node, firstText, firstLine_prune, firstText]
  obtain ⟨head, children⟩ := t
  rw [isOneLine, Bool.or_eq_true, not_or] at h
  rw [Tag.prune, if_neg h.1, Tag.pruneList_eq_map, List.map_map]
  rfl

/-- Reading the lines of siblings adds their outlines, if reading the lines of each adds its own. -/
theorem foldlM_readLine_flatMap (level : Nat) {ts : List Tag}
    (h : ∀ u ∈ ts, ∀ s : Progress, ((lines dialect level u).map Line.text).foldlM readLine s =
      some (s.add [outlineOf dialect level u])) (s : Progress) :
    ((ts.flatMap (lines dialect level)).map Line.text).foldlM readLine s =
      some (s.add (ts.map (outlineOf dialect level))) := by
  induction ts generalizing s with
  | nil =>
    rw [List.flatMap_nil, List.map_nil, List.foldlM_nil, List.map_nil, Progress.add, List.append_nil]
    rfl
  | cons t ts ih =>
    have hrest := ih fun u hu => h u (List.mem_cons_of_mem t hu)
    rw [List.flatMap_cons, List.map_append, List.foldlM_append, h t List.mem_cons_self s]
    show List.foldlM readLine (s.add [outlineOf dialect level t]) _ = _
    rw [hrest, Progress.add_add, List.map_cons, List.singleton_append]

theorem readLine_of_leaf {line : String} (h : reading line = .leaf) (s : Progress) :
    readLine s line = some (s.add [.node line []]) := by
  rw [readLine, h]

theorem readLine_of_opening {line name : String} (h : reading line = .opening name) (s : Progress) :
    readLine s line = some ⟨[], ⟨line, s.done⟩ :: s.pending⟩ := by
  rw [readLine, h]

/-- A closing line that fits ends the innermost open element. -/
theorem readLine_of_closing {line opener name : String} (h : reading line = .closing name)
    (hopener : reading opener = .opening name) (hmargin : margin opener = margin line)
    (s : Progress) (os : List (Outline String)) :
    readLine ⟨os, ⟨opener, s.done⟩ :: s.pending⟩ line = some (s.add [.node opener os]) := by
  rw [readLine, h]
  exact if_pos ⟨hopener, hmargin⟩

/-- Reading the lines of a tag adds its outline, whatever was read before and whatever is open. -/
theorem foldlM_readLine_lines {t : Tag} (h : IsBare t) (s : Progress) :
    ((lines dialect level t).map Line.text).foldlM readLine s =
      some (s.add [outlineOf dialect level t]) := by
  induction t using Tag.induction_on_children generalizing level s with
  | step head children ih =>
    by_cases hleaf : isOneLine ⟨head, children⟩
    · have hread : readLine s (firstLine dialect level ⟨head, children⟩).text = _ :=
        readLine_of_leaf (reading_firstText_of_isOneLine dialect level h hleaf) s
      rw [lines_of_isOneLine hleaf, outlineOf_of_isOneLine hleaf, List.map_singleton, List.foldlM_cons,
        hread]
      rfl
    · have hopener := reading_firstText_of_not_isOneLine dialect level h hleaf
      have hopen : readLine s (firstLine dialect level ⟨head, children⟩).text = _ :=
        readLine_of_opening hopener s
      -- The children are read on top of the element that the first line has opened.
      have hbelow := foldlM_readLine_flatMap (level + 1)
        (fun u hu s => ih u hu (isBare_child h hu) s)
        ⟨[], ⟨firstText dialect level ⟨head, children⟩, s.done⟩ :: s.pending⟩
      have hlast : reading (lastLine dialect level ⟨head, children⟩).text =
          .closing (elementName dialect head) :=
        reading_text (l := lastLine dialect level ⟨head, children⟩) trivial
      have hmargin : margin (firstText dialect level ⟨head, children⟩) =
          margin (lastLine dialect level ⟨head, children⟩).text := by
        rw [margin_firstText, margin_text, lastLine]
      have hclose := readLine_of_closing hlast hopener hmargin s
        (children.map (outlineOf dialect (level + 1)))
      rw [Progress.add, List.nil_append] at hbelow
      rw [lines_of_not_isOneLine hleaf, outlineOf_of_not_isOneLine hleaf, List.map_cons, List.map_append,
        List.foldlM_cons, hopen, Option.bind_eq_bind, Option.bind_some, List.foldlM_append, hbelow,
        Option.bind_eq_bind, Option.bind_some, List.map_singleton, List.foldlM_cons, hclose]
      rfl

/-! ## What is read -/

/-- What a reader finds in the lines of a body. -/
structure SpellsOut (dialect : Dialect) (t : Tag) : Prop where
  /-- Every line is written for a tag. -/
  lines : (placedLines dialect 0 t).map PlacedLine.line = lines dialect 0 t
  /-- Each is indented by the depth of its tag, and its text says what it is. -/
  line : ∀ l ∈ placedLines dialect 0 t, ∃ u, t.at? l.position = some u ∧
    margin l.line.text = 4 + 2 * l.position.length ∧
    reading l.line.text =
      if isOneLine u then .leaf
      else if l.line = lastLine dialect l.position.length u then .closing (elementName dialect u.head)
      else .opening (elementName dialect u.head)
  /-- Every closing line meets its element, none stays open, and the tree that was read is this one. -/
  nested : readOutlines ((Markup.lines dialect 0 t).map Line.text) =
    some [t.prune.outline (firstText dialect) 0]
  /-- The margins in it depend on the depths alone. -/
  margins : (t.prune.outline (firstText dialect) 0).map margin =
    t.prune.outline (fun depth _ => 4 + 2 * depth) 0

theorem isBare_of_at? {t u : Tag} {p : List Nat} (h : IsBare t) (hu : t.at? p = some u) : IsBare u := by
  induction p generalizing t with
  | nil =>
    cases hu
    exact h
  | cons i p ih =>
    obtain ⟨child, hchild, hu⟩ := Tag.at?_cons_eq_some_iff.mp hu
    exact ih (isBare_child h (List.mem_of_getElem? hchild)) hu

theorem spellsOut_of_isBare {t : Tag} (h : IsBare t) (dialect : Dialect) : SpellsOut dialect t := by
  constructor
  case lines => exact map_line_placedLines dialect 0 t
  case line =>
    intro l hl
    obtain ⟨u, hu, -, hline⟩ := of_mem_placedLines hl
    rw [Nat.zero_add] at hline
    have hbare := isBare_of_at? h hu
    refine ⟨u, hu, ?_, ?_⟩
    · rw [margin_text]
      rcases hline with hfirst | ⟨-, hlast⟩
      · rw [hfirst, level_firstLine]
      · rw [hlast, lastLine]
    · rcases hline with hfirst | ⟨hopens, hlast⟩
      · by_cases hleaf : isOneLine u
        · rw [if_pos hleaf, hfirst]
          exact reading_firstText_of_isOneLine dialect _ hbare hleaf
        · -- The first and the last line of one tag are told apart by their forms.
          have hne : firstLine dialect l.position.length u ≠ lastLine dialect l.position.length u := by
            rw [firstLine_of_not_isOneLine hleaf, lastLine]
            simp
          rw [if_neg hleaf, hfirst, if_neg hne]
          exact reading_firstText_of_not_isOneLine dialect _ hbare hleaf
      · rw [if_neg hopens, if_pos hlast, hlast]
        exact reading_text (l := lastLine dialect l.position.length u) trivial
  case nested =>
    rw [readOutlines, foldlM_readLine_lines h]
    rfl
  case margins =>
    rw [Tag.map_outline]
    simp only [margin_firstText]

/-! ## Built trees -/

/-- **A body is well nested, and its tree can be read back from its text.** A visible root has a tree, into
which declared components may be put. In both dialects each line is then indented by four spaces and two
for each tag above its own; it opens an element, closes one or is a leaf, and its text says which; a reader
with a stack meets at every closing line an open element of the same name and margin and ends with none
open; and the tree that it has read is the tag tree without what is below instances, with margins that are
the same in both dialects. -/
theorem spellsOut_build {root : SceneNode} (unit : LengthUnit) (detection : Detection) (start : Counter)
    (components : List UserComponent) (hroot : root.visible) :
    ∃ t stop, Tag.build root unit detection start = (some t, stop) ∧
      ∀ dialect, body dialect (t.identify components) =
          "\n".intercalate ((lines dialect 0 (t.identify components)).map Line.text) ∧
        SpellsOut dialect (t.identify components) := by
  obtain ⟨t, stop, hbuilt⟩ := Tag.exists_build unit detection start hroot
  exact ⟨t, stop, hbuilt, fun dialect =>
    ⟨rfl, spellsOut_of_isBare (isBare_identify (isBare_of_build hbuilt)) dialect⟩⟩

/-- A board with a title, a button that is an instance, and a row with a slash in its name, around a card. -/
def board : SceneNode :=
  .container .frame { name := "Board" } {}
    [.text { name := "Title" } { characters := "a </b> c" },
      .container .componentInstance { name := "Button" } {}
        [.text { name := "Label" } { characters := "OK" }],
      .container .frame { name := "Row / first" } {}
        [.container .frame { name := "Card" } {} [.text { name := "Body" } { characters := "..." }]]]

/-- Neither the signs in the title nor those in the name of the row mislead the reader; the button and the
declared card are leaves. -/
theorem spellsOut_build_board :
    board.visible ∧ ∃ t stop, Tag.build board .px .identify {} = (some t, stop) ∧
      ∀ dialect, ∃ o,
        readOutlines ((lines dialect 0 (t.identify [{ name := "Card" }])).map Line.text) = some [o] ∧
        o.map margin = .node 4 [.node 6 [], .node 6 [], .node 6 [.node 8 []]] := by
  have hroot : board.visible := by decide
  obtain ⟨t, stop, hbuilt, hspells⟩ := spellsOut_build .px .identify {} [{ name := "Card" }] hroot
  have hmargins : (Tag.build board .px .identify {}).1.map (fun t =>
      (t.identify [{ name := "Card" }]).prune.outline (fun depth _ => 4 + 2 * depth) 0) =
        some (.node 4 [.node 6 [], .node 6 [], .node 6 [.node 8 []]]) := by
    rfl
  rw [hbuilt, Option.map_some, Option.some.injEq] at hmargins
  refine ⟨hroot, t, stop, hbuilt, fun dialect => ⟨_, (hspells dialect).2.nested, ?_⟩⟩
  rw [(hspells dialect).2.margins, hmargins]

end Handoff.Markup
