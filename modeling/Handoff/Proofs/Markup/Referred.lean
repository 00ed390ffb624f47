/-
# Handoff.Proofs.Markup.Referred — the names that instances go by

An instance is not unpacked: the module imports its component and refers to it. Which instances a module refers
to is settled by the scene alone. They are the visible ones that are below no image, no other instance and nothing
hidden, in scene order. The name that they go by is that of their tag, and there two decisions meet. Whether a
node is shown as an image is decided before it is looked at as an instance, and images are all called `img`. So
an instance that is an image itself is not referred to by the name of its component.
-/

import Handoff.Proofs.Markup.Imports

namespace Handoff

/-! ## Instances of a scene -/

namespace SceneNode

/-- Whether what is below a node is written into the module: it is visible, no image and no instance. -/
def isExpanded (n : SceneNode) : Bool :=
  n.isOpen && !n.isInstance

/-- The instances that are seen from a node where images and instances hide what is below them. -/
def referredFrom (above : List SceneNode) (n : SceneNode) : List SceneNode :=
  ((n.standingsFrom above).filter fun s => s.node.isInstance && s.isSeen isExpanded).map Standing.node

/-- The visible instances of a scene all of whose ancestors are visible and neither images nor instances. -/
def referred (root : SceneNode) : List SceneNode :=
  root.referredFrom []

/-- The name that an instance goes by: all images have the same. -/
def referenceName (n : SceneNode) : String :=
  if n.isImageLike then "img" else Text.sanitize n.name

/-- The element that an instance is written as. -/
def referenceElement (n : SceneNode) : Markup.Element :=
  { name := Text.capitalize n.referenceName, attributes := if n.isImageLike then [.text "src" ""] else [] }

/-- Whether an instance goes by the name of its layer. An image is called `img` instead, which makes no difference
only by accident: if the layer's name is written `Img` as well, if some instance brings in the import of that name,
and if some instance has a layer called `img`. -/
def GoesByName (root n : SceneNode) : Prop :=
  n.isImageLike → Text.capitalize (Text.sanitize n.name) = "Img" ∧
    Text.sanitize n.name ∈ root.referred.map referenceName ∧
    "img" ∈ root.referred.map fun m => Text.sanitize m.name

variable {above : List SceneNode} {n : SceneNode}

theorem referredFrom_of_hidden (hn : ¬n.visible) : referredFrom above n = [] := by
  have hvisible : ∀ m : SceneNode, m.isExpanded → m.visible := by
    intro m hm
    simp only [isExpanded, isOpen, Bool.and_eq_true] at hm
    exact hm.1.1
  rw [referredFrom, ← List.filter_filter, filter_isSeen_of_hidden hvisible hn]
  rfl

/-- An instance is referred to itself; below anything else, an image apart, the instances are those of the
children. -/
theorem referredFrom_of_visible (habove : above.all isExpanded) (hn : n.visible) :
    referredFrom above n =
      if n.isInstance then [n]
      else if n.isImageLike then [] else n.children.flatMap (referredFrom (above ++ [n])) := by
  rw [referredFrom, ← List.filter_filter, filter_isSeen_of_visible habove hn]
  by_cases hinstance : n.isInstance
  · have hclosed : ¬n.isExpanded := by simp [isExpanded, hinstance]
    rw [if_pos hinstance, if_neg hclosed]
    simp [hinstance]
  · have hskip (rest : List Standing) : List.filter (fun s => s.node.isInstance) (⟨above, n⟩ :: rest) =
        rest.filter fun s => s.node.isInstance :=
      List.filter_cons_of_neg hinstance
    rw [if_neg hinstance, hskip]
    by_cases himage : n.isImageLike
    · have hclosed : ¬n.isExpanded := by simp [isExpanded, isOpen, himage]
      rw [if_pos himage, if_neg hclosed]
      rfl
    · have hopen : n.isExpanded := by simp [isExpanded, isOpen, hn, himage, hinstance]
      rw [if_neg himage, if_pos hopen, List.filter_flatMap, List.map_flatMap]
      simp only [List.filter_filter]
      rfl

end SceneNode

/-- A tag that was built has the name that its node would be referred to by. -/
theorem Tag.name_of_build {root : SceneNode} {unit : LengthUnit} {detection : Detection} {start stop : Counter}
    {t u : Tag} {p : List Nat} (hbuilt : build root unit detection start = (some t, stop))
    (hu : t.at? p = some u) : u.name = u.head.source.referenceName := by
  obtain ⟨m, c, -, hbuiltAt⟩ := of_buildIn_at hbuilt hu
  obtain ⟨-, hhead, -⟩ := of_buildIn hbuiltAt
  rw [name, hhead]
  rfl

namespace Markup

variable {dialect : Dialect} {root : SceneNode} {unit : LengthUnit} {start stop : Counter} {t : Tag}

/-! ## Instances of a built tree -/

/-- The tree of a node refers to the instances that are seen from it. -/
theorem map_source_referred_of_buildIn {above : List SceneNode} {n : SceneNode} {ctx : StyleContext}
    {counter counter' : Counter} (habove : above.all SceneNode.isExpanded)
    (h : Tag.buildIn .identify ctx n counter = (some t, counter')) :
    ((referred t).map fun u => u.head.source) = SceneNode.referredFrom above n := by
  induction n using SceneNode.induction_on_children generalizing above ctx counter counter' t with
  | step n ih =>
    obtain ⟨hvisible, hhead, hbelow⟩ := Tag.of_buildIn h
    obtain ⟨head, children⟩ := t
    obtain rfl : head = Tag.builtHead .identify ctx n counter := hhead
    have hmarked : (Tag.builtHead .identify ctx n counter).isInstance = n.isInstance := rfl
    rw [SceneNode.referredFrom_of_visible habove hvisible, referred, hmarked]
    by_cases hinstance : n.isInstance
    · rw [if_pos hinstance, if_pos hinstance]
      rfl
    · rw [if_neg hinstance, if_neg hinstance, referredList_eq_flatMap, List.map_flatMap]
      by_cases himage : n.isImageLike
      · rw [Tag.builtBelow, if_pos himage, Prod.mk.injEq] at hbelow
        obtain rfl : [] = children := hbelow.1
        rw [if_pos himage, List.flatMap_nil]
      · have hopen : n.isExpanded := by
          simp [SceneNode.isExpanded, SceneNode.isOpen, hvisible, himage, hinstance]
        rw [Tag.builtBelow, if_neg himage] at hbelow
        rw [if_neg himage]
        exact Tag.flatMap_of_buildList (fun m hm => SceneNode.referredFrom_of_hidden hm)
          (fun m hm _ _ _ _ hbuilt => ih m hm (SceneNode.all_append_singleton habove hopen) hbuilt) hbelow

/-- The lines of instances are written for the instances that the scene refers to, in scene order. -/
theorem map_source_references (dialect : Dialect)
    (hbuilt : Tag.build root unit .identify start = (some t, stop)) :
    ((references dialect t).map fun r => r.tag.head.source) = root.referred := by
  have hnone : ([] : List SceneNode).all SceneNode.isExpanded := rfl
  rw [SceneNode.referred, ← map_source_referred_of_buildIn hnone hbuilt, ← map_tag_references dialect,
    List.map_map]
  rfl

/-- What an instance is called and what attributes it has follow from its node. -/
theorem head_of_mem_references (hbuilt : Tag.build root unit .identify start = (some t, stop)) {r : Reference}
    (hr : r ∈ references dialect t) :
    r.tag.name = r.tag.head.source.referenceName ∧
      instanceElement r.tag.head = r.tag.head.source.referenceElement := by
  obtain ⟨-, hu, -⟩ := mem_references_iff.mp hr
  have hname := Tag.name_of_build hbuilt hu
  refine ⟨hname, ?_⟩
  have hsanitized := Tag.sanitize_name_of_build hbuilt hu
  obtain ⟨m, c, -, hbuiltAt⟩ := Tag.of_buildIn_at hbuilt hu
  obtain ⟨-, hhead, -⟩ := Tag.of_buildIn hbuiltAt
  rw [instanceElement, instanceName, SceneNode.referenceElement, ← hname]
  change Element.mk (Text.capitalize (Text.sanitize r.tag.name)) none _ = _
  rw [hsanitized, hhead]
  rfl

theorem instanceNames_of_build (hbuilt : Tag.build root unit .identify start = (some t, stop)) :
    instanceNames t = root.referred.map SceneNode.referenceName := by
  rw [← map_name_references .elementBased, ← map_source_references .elementBased hbuilt, List.map_map]
  exact List.map_congr_left fun r hr => (head_of_mem_references hbuilt hr).1

/-! ## References by name -/

/-- Every instance is imported and written under the name of its layer, and nothing else is imported. -/
structure RefersByName (dialect : Dialect) (t : Tag) : Prop where
  written : ∀ r ∈ references dialect t, ∃ element, r.line.form = .empty element ∧
    element.name = Text.capitalize (Text.sanitize r.tag.head.source.name)
  imported : ∀ r ∈ references dialect t,
    ⟨Text.capitalize (Text.sanitize r.tag.head.source.name), Text.sanitize r.tag.head.source.name⟩ ∈ imports t
  named : ∀ i ∈ imports t, ∃ r ∈ references dialect t, i.component = Text.sanitize r.tag.head.source.name

/-- A module refers by name if its instances go by the names of their layers. -/
theorem refersByName_iff (hbuilt : Tag.build root unit .identify start = (some t, stop)) :
    RefersByName dialect t ↔ ∀ n ∈ root.referred, root.GoesByName n := by
  have hsource := map_source_references dialect hbuilt
  have hnames := instanceNames_of_build hbuilt
  have hcapital : Text.capitalize "img" = "Img" := by decide
  have hwritten {r : Reference} (hr : r ∈ references dialect t) :
      r.line.form = .empty r.tag.head.source.referenceElement := by
    rw [line_of_mem_references hr, (head_of_mem_references hbuilt hr).2]
  constructor
  · intro h n hn himage
    obtain ⟨r, hr, rfl⟩ := List.mem_map.mp (hsource.symm ▸ hn)
    have himg : r.tag.head.source.referenceName = "img" := if_pos himage
    refine ⟨?_, ?_, ?_⟩
    · obtain ⟨element, hform, hname⟩ := h.written r hr
      rw [hwritten hr, LineForm.empty.injEq] at hform
      rw [← hname, ← hform, SceneNode.referenceElement, himg]
      exact hcapital
    · rw [← hnames]
      exact (mem_imports_iff.mp (h.imported r hr)).1
    · -- The import of `img` is there for this instance, but named after another one.
      have himport : ⟨Text.capitalize "img", "img"⟩ ∈ imports t := by
        refine mem_imports_iff.mpr ⟨?_, rfl⟩
        rw [hnames, ← himg]
        exact List.mem_map_of_mem hn
      obtain ⟨r', hr', hname⟩ := h.named _ himport
      rw [← hsource, List.map_map]
      exact List.mem_map.mpr ⟨r', hr', hname.symm⟩
  · intro h
    have hreferred {r : Reference} (hr : r ∈ references dialect t) : r.tag.head.source ∈ root.referred := by
      rw [← hsource]
      exact List.mem_map_of_mem hr
    have hown {n : SceneNode} (himage : ¬n.isImageLike) : n.referenceName = Text.sanitize n.name :=
      if_neg himage
    constructor
    case written =>
      intro r hr
      refine ⟨_, hwritten hr, ?_⟩
      rw [SceneNode.referenceElement]
      by_cases himage : r.tag.head.source.isImageLike
      · rw [(h _ (hreferred hr) himage).1, SceneNode.referenceName, if_pos himage]
        exact hcapital
      · rw [hown himage]
    case imported =>
      intro r hr
      refine mem_imports_iff.mpr ⟨?_, rfl⟩
      rw [hnames]
      by_cases himage : r.tag.head.source.isImageLike
      · exact (h _ (hreferred hr) himage).2.1
      · rw [← hown himage]
        exact List.mem_map_of_mem (hreferred hr)
    case named =>
      intro i hi
      have hname := (mem_imports_iff.mp hi).1
      rw [hnames, ← hsource, List.map_map] at hname
      obtain ⟨r, hr, hname⟩ := List.mem_map.mp hname
      by_cases himage : r.tag.head.source.isImageLike
      · have hother := (h _ (hreferred hr) himage).2.2
        rw [← hsource, List.map_map] at hother
        obtain ⟨r', hr', hother⟩ := List.mem_map.mp hother
        refine ⟨r', hr', ?_⟩
        rw [← hname, Function.comp_apply, SceneNode.referenceName, if_pos himage]
        exact hother.symm
      · refine ⟨r, hr, ?_⟩
        rw [← hname]
        exact hown himage

/-- **Under which names instances are referred to.** A visible root has a tree. Its module imports, once each and
in the order of first mention, the names that the instances of the scene go by, and in both dialects it writes
every one of these instances as an empty element with that name. Its imports and its references bear the names of
the layers exactly if the instances go by them. All do that are no images. -/
theorem refersByName_build_iff (unit : LengthUnit) (start : Counter) (hroot : root.visible) :
    ∃ t stop, Tag.build root unit .identify start = (some t, stop) ∧
      imports t = (root.referred.map SceneNode.referenceName).eraseDups.map
        (fun name => ⟨Text.capitalize name, name⟩) ∧
      ∀ dialect, ImportsMatch dialect t ∧
        ((references dialect t).map fun r => r.tag.head.source) = root.referred ∧
        ((references dialect t).map fun r => r.line.form) =
          root.referred.map (fun n => .empty n.referenceElement) ∧
        (RefersByName dialect t ↔ ∀ n ∈ root.referred, root.GoesByName n) := by
  obtain ⟨t, stop, hbuilt⟩ := Tag.exists_build unit .identify start hroot
  refine ⟨t, stop, hbuilt, ?_, fun dialect => ⟨?_, map_source_references dialect hbuilt, ?_,
    refersByName_iff hbuilt⟩⟩
  · rw [imports, instanceNames_of_build hbuilt]
  · exact importsMatch_of_sanitized dialect fun _ _ hu => Tag.sanitize_name_of_build hbuilt hu
  · rw [← map_source_references dialect hbuilt, List.map_map]
    refine List.map_congr_left fun r hr => ?_
    rw [line_of_mem_references hr, (head_of_mem_references hbuilt hr).2]
    rfl

/-- A page with an instance that wraps vector art, and with one that has another instance in it. -/
def letterhead : SceneNode :=
  .container .frame { name := "Page" } {}
    [.container .componentInstance { name := "Logo" } {} [.shape .vector { name := "Path" } {}],
      .container .componentInstance { name := "nav bar" } {}
        [.container .componentInstance { name := "Link" } {} []]]

/-- The logo is an image and is not called like one. -/
theorem exists_not_goesByName_letterhead : ∃ n ∈ letterhead.referred, ¬letterhead.GoesByName n := by
  have hlogo : ∃ n ∈ letterhead.referred, n.isImageLike ∧ Text.capitalize (Text.sanitize n.name) ≠ "Img" := by
    decide
  obtain ⟨n, hn, himage, hother⟩ := hlogo
  exact ⟨n, hn, fun h => hother (h himage).1⟩

/-- The bar goes by its own name, the logo by that of an image. -/
theorem refersByName_build_iff_letterhead :
    letterhead.visible ∧ ∃ t stop, Tag.build letterhead .px .identify {} = (some t, stop) ∧
      imports t = [⟨"Img", "img"⟩, ⟨"Navbar", "navbar"⟩] ∧
      ∀ dialect, ((references dialect t).map fun r => r.line.form) =
          [.empty { name := "Img", attributes := [.text "src" ""] }, .empty { name := "Navbar" }] ∧
        ¬RefersByName dialect t := by
  have hroot : letterhead.visible := by decide
  obtain ⟨t, stop, hbuilt, himports, hreferences⟩ := refersByName_build_iff .px {} hroot
  have hnames : letterhead.referred.map SceneNode.referenceName = ["img", "navbar"] := by decide
  have helements : letterhead.referred.map SceneNode.referenceElement =
      [{ name := "Img", attributes := [.text "src" ""] }, { name := "Navbar" }] := by
    decide
  refine ⟨hroot, t, stop, hbuilt, ?_, fun dialect => ?_⟩
  · rw [himports, hnames]
    decide
  · obtain ⟨-, -, hforms, hiff⟩ := hreferences dialect
    refine ⟨?_, fun hname => ?_⟩
    · rw [hforms]
      exact congrArg (List.map LineForm.empty) helements
    · obtain ⟨logo, hlogo, hother⟩ := exists_not_goesByName_letterhead
      exact hother (hiff.mp hname logo hlogo)

/-- Not every module refers by name: the logo is imported and written as `Img`. -/
theorem not_forall_refersByName :
    ¬∀ (root : SceneNode) (unit : LengthUnit) (t : Tag) (stop : Counter) (dialect : Dialect), root.visible →
      Tag.build root unit .identify {} = (some t, stop) → RefersByName dialect t := by
  intro h
  obtain ⟨t, stop, hbuilt⟩ := Tag.exists_build .px .identify {} (show letterhead.visible by decide)
  have hname := h letterhead .px t stop .elementBased (by decide) hbuilt
  obtain ⟨logo, hlogo, hother⟩ := exists_not_goesByName_letterhead
  exact hother ((refersByName_iff hbuilt).mp hname logo hlogo)

end Markup

end Handoff
