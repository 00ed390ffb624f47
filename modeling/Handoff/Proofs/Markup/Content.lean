/-
# Handoff.Proofs.Markup.Content — which texts of a scene are written

A text of the scene passes two hands on its way into the markup. The builder drops what is invisible and
what is below an image, and the writer drops what is below an instance and has to write the characters of
everything else: a tag with children would lose its own. Here both together come to one list of texts, those
that are visible and have only ancestors that are written with their children.
-/

import Handoff.Markup.Body
import Handoff.Proofs.Tag.Shown
import Handoff.Proofs.Tag.Source

namespace Handoff

/-! ## Texts of a scene -/

namespace SceneNode

/-- Whether the children of a node are written: the node is visible, not shown as one image, and no
instance where components are recognised. -/
def isWritten (detection : Detection) (n : SceneNode) : Bool :=
  n.visible && !n.isImageLike && !(detection == .identify && n.isInstance)

/-- The characters of the visible texts below the given nodes all of whose ancestors are written with their
children, in scene order. -/
def textsFrom (detection : Detection) (above : List SceneNode) (n : SceneNode) : List String :=
  ((n.standingsFrom above).filter (Standing.isSeen (isWritten detection))).filterMap fun s =>
    s.node.characters?

/-- The characters of those texts of a scene, in scene order. -/
def writtenTexts (detection : Detection) (root : SceneNode) : List String :=
  root.textsFrom detection []

variable {detection : Detection} {above : List SceneNode}

theorem visible_of_isWritten {n : SceneNode} (h : n.isWritten detection) : n.visible := by
  simp only [isWritten, Bool.and_eq_true] at h
  exact h.1.1

theorem textsFrom_of_hidden {n : SceneNode} (hn : ¬n.visible) : n.textsFrom detection above = [] := by
  rw [textsFrom, filter_isSeen_of_hidden (fun _ => visible_of_isWritten) hn, List.filterMap_nil]

/-- A visible node contributes its own characters, and what its children contribute if they are written. -/
theorem textsFrom_of_visible {n : SceneNode} (habove : above.all (isWritten detection))
    (hn : n.visible) :
    n.textsFrom detection above = n.characters?.toList ++
      if n.isWritten detection then n.children.flatMap (textsFrom detection (above ++ [n])) else [] := by
  rw [textsFrom, filter_isSeen_of_visible habove hn, List.filterMap_cons]
  have hbelow : (if n.isWritten detection then
      n.children.flatMap fun m =>
        (m.standingsFrom (above ++ [n])).filter (Standing.isSeen (isWritten detection))
      else []).filterMap (fun s => s.node.characters?) =
      if n.isWritten detection then n.children.flatMap (textsFrom detection (above ++ [n])) else [] := by
    split
    · rw [List.filterMap_flatMap]
      rfl
    · rfl
  rw [hbelow]
  cases n.characters? <;> rfl

end SceneNode

namespace Markup

/-! ## Texts of a body -/

/-- The characters that a line is written around. -/
def LineForm.content? : LineForm → Option String
  | .opening _ => none
  | .closing _ => none
  | .empty _ => none
  | .characters _ content => some content

/-- The characters that are written, line by line. -/
def contents (ls : List Line) : List String :=
  ls.filterMap fun l => l.form.content?

variable {dialect : Dialect} {level : Nat}

theorem contents_flatMap {α : Type} (f : α → List Line) (as : List α) :
    contents (as.flatMap f) = as.flatMap fun a => contents (f a) :=
  List.filterMap_flatMap

/-- What a tag contributes: nothing if it is an instance, its characters if it has no children, and what
its children contribute otherwise. -/
theorem contents_lines (t : Tag) :
    contents (lines dialect level t) =
      if t.head.isInstance then []
      else if t.children.isEmpty then contents [leafLine dialect level t.head]
      else t.children.flatMap fun u => contents (lines dialect (level + 1) u) := by
  obtain ⟨head, children⟩ := t
  rw [lines, linesOfList_eq_flatMap, ← contents_flatMap]
  split
  · rfl
  · split
    · rfl
    · -- The lines around those of the children have no characters.
      simp [contents, LineForm.content?]

/-- No tag of a built tree has both characters and children, so none loses its characters. -/
theorem contents_lines_of_reflects {detection : Detection} {isRoot : Bool} {t : Tag}
    (h : Tag.Reflects detection isRoot t) :
    contents (lines dialect level t) =
      if t.head.isInstance then []
      else t.head.characters.toList ++
        t.children.flatMap fun u => contents (lines dialect (level + 1) u) := by
  rw [contents_lines]
  by_cases hinstance : t.head.isInstance
  · rw [if_pos hinstance, if_pos hinstance]
  · rw [if_neg hinstance, if_neg hinstance]
    by_cases htext : t.head.isText
    · obtain ⟨hsome, -, hleaf⟩ := h.text htext
      obtain ⟨characters, hcharacters⟩ := Option.isSome_iff_exists.mp hsome
      simp [hleaf, leafLine, htext, hcharacters, contents, LineForm.content?]
    · have hnone := h.untyped htext
      cases hchildren : t.children with
      | nil => simp [leafLine, htext, hnone, contents, LineForm.content?]
      | cons u us => simp [hnone]

/-! ## Text lines -/

/-- The element that texts are written in. -/
def textElement : Dialect → String
  | .elementBased => "p"
  | .componentBased => "Text"

/-- A line with characters is written for a text of the tree. -/
theorem exists_text_of_mem_lines {t : Tag} {l : Line} {element : Element} {content : String}
    (hl : l ∈ lines dialect level t) (hform : l.form = .characters element content) :
    ∃ u ∈ t.preorder, u.head.isText ∧ element = elementOf dialect u.head := by
  induction t using Tag.induction_on_children generalizing level with
  | step head children ih =>
    rw [lines, linesOfList_eq_flatMap] at hl
    split at hl
    · rw [List.mem_singleton.mp hl] at hform
      cases hform
    · split at hl
      · refine ⟨⟨head, children⟩, Tag.self_mem_preorder _, ?_⟩
        rw [List.mem_singleton.mp hl, leafLine] at hform
        split at hform
        next htext =>
          cases hform
          exact ⟨htext, rfl⟩
        next => cases hform
      · rw [List.mem_cons, List.mem_append, List.mem_flatMap, List.mem_singleton] at hl
        rcases hl with rfl | ⟨child, hchild, hl⟩ | rfl
        · cases hform
        · obtain ⟨u, hu, htext, helement⟩ := ih child hchild hl
          exact ⟨u, Tag.mem_preorder_of_mem_children hchild hu, htext, helement⟩
        · cases hform

/-- A text of a built tree has no attributes, and its element is the same for all texts. -/
theorem elementOf_of_reflects {detection : Detection} {isRoot : Bool} {t : Tag}
    (h : Tag.Reflects detection isRoot t) (htext : t.head.isText) :
    (elementOf dialect t.head).name = textElement dialect ∧
      (elementOf dialect t.head).attributes = [] := by
  have hplain : ¬t.head.isDefinition := by
    intro hdefinition
    -- A text is no component.
    have hcomponent := (h.isDefinition.mp hdefinition).2.1
    rw [h.isText] at htext
    cases hsource : t.head.source with
    | text layer run =>
      rw [hsource] at hcomponent
      cases hcomponent
    | _ =>
      rw [hsource] at htext
      cases htext
  refine ⟨?_, (h.unpacked (h.text htext).2.1).2⟩
  cases dialect <;> simp [elementOf, elementName, isPlain, hplain, htext, textElement]

/-- A line around characters is an opening tag, the characters, and the closing tag. -/
theorem text_of_characters {l : Line} {element : Element} {content : String}
    (hform : l.form = .characters element content) (hattributes : element.attributes = []) :
    l.text = indent l.level ++ (("<" ++ element.name ++ classText element.styleClass ++ ">") ++
      content ++ ("</" ++ element.name ++ ">")) := by
  simp [Line.text, hform, LineForm.text, Element.text, hattributes, String.append_assoc]

/-! ## Built trees -/

variable {detection : Detection} {ctx : StyleContext} {counter counter' : Counter}

/-- A built tree is written with the texts of its scene. -/
theorem contents_lines_of_buildIn {above : List SceneNode} {n : SceneNode} {t : Tag} {level : Nat}
    (habove : above.all (SceneNode.isWritten detection))
    (h : Tag.buildIn detection ctx n counter = (some t, counter')) :
    contents (lines dialect level t) = n.textsFrom detection above := by
  induction n using SceneNode.induction_on_children generalizing above ctx counter counter' t level with
  | step n ih =>
    obtain ⟨hvisible, hhead, hbelow⟩ := Tag.of_buildIn h
    have hcharacters : t.head.characters = n.characters? := by rw [hhead]; rfl
    have hinstance : t.head.isInstance = (detection == .identify && n.isInstance) := by rw [hhead]; rfl
    rw [contents_lines_of_reflects (Tag.reflects_of_buildIn h),
      SceneNode.textsFrom_of_visible habove hvisible, hcharacters, hinstance]
    by_cases hopaque : detection == .identify && n.isInstance
    · -- An instance has no characters of its own, and its children are not written.
      have hclosed : ¬n.isWritten detection := by simp [SceneNode.isWritten, hopaque]
      have hnone : n.characters? = none := by
        rw [Bool.and_eq_true] at hopaque
        cases n with
        | container role layer box children => rfl
        | _ => cases hopaque.2
      rw [if_pos hopaque, if_neg hclosed, hnone]
      rfl
    · rw [if_neg hopaque]
      congr 1
      by_cases himage : n.isImageLike
      · have hclosed : ¬n.isWritten detection := by simp [SceneNode.isWritten, himage]
        rw [Tag.builtBelow, if_pos himage, Prod.mk.injEq] at hbelow
        rw [if_neg hclosed, ← hbelow.1, List.flatMap_nil]
      · have hopen : n.isWritten detection := by
          rw [SceneNode.isWritten, hvisible, Bool.eq_false_iff.mpr himage, Bool.eq_false_iff.mpr hopaque]
          rfl
        rw [Tag.builtBelow, if_neg himage] at hbelow
        rw [if_pos hopen]
        exact Tag.flatMap_of_buildList (fun m hm => SceneNode.textsFrom_of_hidden hm)
          (fun m hm _ _ _ _ hbuilt => ih m hm (SceneNode.all_append_singleton habove hopen) hbuilt) hbelow

/-- **No text is lost, written twice or moved.** A visible root has a tree. In both dialects the texts that
the lines of its body are written around are, line by line, the characters of exactly those visible texts
of the scene, in scene order, that have only visible ancestors, none of them shown as an image and none an
instance where components are recognised. Each stands on one line between an opening and a closing tag of
one name. -/
theorem contents_lines_build {root : SceneNode} (unit : LengthUnit) (detection : Detection)
    (start : Counter) (dialect : Dialect) (hroot : root.visible) :
    ∃ t stop, Tag.build root unit detection start = (some t, stop) ∧
      body dialect t = "\n".intercalate ((lines dialect 0 t).map Line.text) ∧
      contents (lines dialect 0 t) = root.writtenTexts detection ∧
      ∀ l ∈ lines dialect 0 t, ∀ content, l.form.content? = some content →
        ∃ styleClass, l.text = indent l.level ++
          (("<" ++ textElement dialect ++ classText styleClass ++ ">") ++ content ++
            ("</" ++ textElement dialect ++ ">")) := by
  obtain ⟨t, stop, hbuilt⟩ := Tag.exists_build unit detection start hroot
  refine ⟨t, stop, hbuilt, rfl, contents_lines_of_buildIn rfl hbuilt, fun l hl content hcontent => ?_⟩
  cases hform : l.form with
  | characters element content' =>
    rw [hform] at hcontent
    cases hcontent
    obtain ⟨u, hu, htext, rfl⟩ := exists_text_of_mem_lines hl hform
    obtain ⟨p, hp⟩ := Tag.exists_at?_of_mem_preorder hu
    obtain ⟨m, c, -, hbuilt⟩ := Tag.of_buildIn_at hbuilt hp
    obtain ⟨hname, hattributes⟩ := elementOf_of_reflects (Tag.reflects_of_buildIn hbuilt) htext
    exact ⟨_, hname ▸ text_of_characters hform hattributes⟩
  | _ =>
    rw [hform] at hcontent
    cases hcontent

/-- A page with an invisible text, a text, a button that is an instance, a photo with a caption, and a card
that is a component. Every one of them has a text in it. -/
def page : SceneNode :=
  let word (characters : String) : SceneNode := .text { name := "Label" } { characters }
  .container .frame { name := "Page" } {}
    [.text { name := "Draft", visible := false } { characters := "draft" },
      word "Hello",
      .container .componentInstance { name := "Button" } {} [word "OK"],
      .container .frame { name := "Photo" } { fills := [.image] } [word "caption"],
      .container .component { name := "Card" } {} [word "inside"]]

/-- The text of the card is written in any case, that of the button only if components are not
recognised. -/
theorem contents_lines_build_page :
    page.visible ∧
    (∃ t stop, Tag.build page .px .identify {} = (some t, stop) ∧
      contents (lines .elementBased 0 t) = ["Hello", "inside"]) ∧
    ∃ t stop, Tag.build page .px .ignore {} = (some t, stop) ∧
      contents (lines .componentBased 0 t) = ["Hello", "OK", "inside"] := by
  have hroot : page.visible := by decide
  obtain ⟨t, stop, hbuilt, -, hcontents, -⟩ :=
    contents_lines_build .px .identify {} .elementBased hroot
  obtain ⟨t', stop', hbuilt', -, hcontents', -⟩ :=
    contents_lines_build .px .ignore {} .componentBased hroot
  have htexts : page.writtenTexts .identify = ["Hello", "inside"] := by decide
  have htexts' : page.writtenTexts .ignore = ["Hello", "OK", "inside"] := by decide
  exact ⟨hroot, ⟨t, stop, hbuilt, hcontents.trans htexts⟩,
    ⟨t', stop', hbuilt', hcontents'.trans htexts'⟩⟩

end Markup

end Handoff
