/-
# Handoff.Proofs.Markup.Imports — imports and the elements that refer to them

What a module imports is collected by one walk, which takes the names of instances as they are. The elements that
refer to the imports are written by another, which sanitizes the names once more. They match because both walks
stop at the same tags and because every tree that was built, with the declared components in it, has sanitized
names only.
-/

import Handoff.Proofs.Markup.Written
import Handoff.Proofs.Tag.Heads
import Handoff.Proofs.Tag.Shown

namespace Handoff

/-! ## Sanitized names -/

namespace Text

theorem sanitize_sanitize (name : String) : sanitize (sanitize name) = sanitize name := by
  rw [sanitize, sanitize, String.toList_ofList, List.filter_filter]
  simp only [Bool.and_self]

end Text

namespace Tag

variable {root : SceneNode} {unit : LengthUnit} {detection : Detection} {start stop : Counter} {t u : Tag}
  {p : List Nat}

/-- Building names an image `img` and every other tag by its sanitized layer name. -/
theorem sanitize_name_of_build (h : build root unit detection start = (some t, stop))
    (hu : t.at? p = some u) : Text.sanitize u.name = u.name := by
  obtain ⟨m, c, -, hbuilt⟩ := of_buildIn_at h hu
  have hreflects := reflects_of_buildIn hbuilt
  by_cases himage : u.head.isImage
  · rw [name, (hreflects.image himage).1]
    rfl
  · rw [name, (hreflects.unpacked himage).1, Text.sanitize_sanitize]

/-- Declared components bring in sanitized names. -/
theorem sanitize_name_of_identify {components : List UserComponent}
    (h : build root unit detection start = (some t, stop))
    (hu : (t.identify components).at? p = some u) : Text.sanitize u.name = u.name := by
  obtain ⟨v, hv, hsame | ⟨c, -, hnew⟩⟩ := of_identify_at hu
  · rw [name, hsame]
    exact sanitize_name_of_build h hv
  · rw [name, hnew]
    exact Text.sanitize_sanitize c.name

end Tag

namespace Markup

variable {dialect : Dialect} {level : Nat} {t u : Tag} {p : List Nat}

/-! ## References -/

/-- A line that is written for an instance. -/
structure Reference where
  position : List Nat
  /-- The instance. -/
  tag : Tag
  line : Line

/-- The reference that a line of a tree is, if it is written for an instance. -/
def PlacedLine.reference? (t : Tag) (l : PlacedLine) : Option Reference :=
  ((t.at? l.position).filter fun u => u.head.isInstance).map fun u => ⟨l.position, u, l.line⟩

/-- The lines of the body that are written for instances, in their order. -/
def references (dialect : Dialect) (t : Tag) : List Reference :=
  (placedLines dialect 0 t).filterMap (PlacedLine.reference? t)

theorem mem_references_iff {r : Reference} :
    r ∈ references dialect t ↔ ⟨r.position, r.line⟩ ∈ placedLines dialect 0 t ∧
      t.at? r.position = some r.tag ∧ r.tag.head.isInstance := by
  rw [references, List.mem_filterMap]
  constructor
  · rintro ⟨l, hl, hr⟩
    obtain ⟨u, hu, rfl⟩ := Option.map_eq_some_iff.mp hr
    obtain ⟨hu, hinstance⟩ := Option.filter_eq_some_iff.mp hu
    exact ⟨hl, hu, hinstance⟩
  · rintro ⟨hl, hu, hinstance⟩
    refine ⟨_, hl, ?_⟩
    rw [PlacedLine.reference?, Option.map_eq_some_iff]
    exact ⟨r.tag, Option.filter_eq_some_iff.mpr ⟨hu, hinstance⟩, rfl⟩

mutual

/-- The instances that the body of a tag tree refers to, in order. -/
def referred : Tag → List Tag
  | ⟨head, children⟩ => if head.isInstance then [⟨head, children⟩] else referredList children

def referredList : List Tag → List Tag
  | [] => []
  | t :: ts => referred t ++ referredList ts

end

theorem referredList_eq_flatMap (ts : List Tag) : referredList ts = ts.flatMap referred := by
  induction ts with
  | nil => rw [referredList, List.flatMap_nil]
  | cons t ts ih => rw [referredList, List.flatMap_cons, ih]

/-- The imports are made from the names of these instances. -/
theorem instanceNames_eq_map (t : Tag) : instanceNames t = (referred t).map Tag.name := by
  induction t using Tag.induction_on_children with
  | step head children ih =>
    rw [instanceNames, referred]
    split
    · rfl
    · rw [instanceNamesOfList_eq_flatMap, referredList_eq_flatMap, List.map_flatMap, List.flatMap_def,
        List.flatMap_def, List.map_congr_left ih]

/-- The instance that a line is written for. -/
def PlacedLine.instance? (t : Tag) (l : PlacedLine) : Option Tag :=
  (t.at? l.position).filter fun u => u.head.isInstance

theorem instance?_below {child : Tag} {i : Nat} (hchild : t.children[i]? = some child) :
    PlacedLine.instance? t ∘ PlacedLine.below i = PlacedLine.instance? child := by
  funext l
  have hat : t.at? (i :: l.position) = child.at? l.position := by
    rw [Tag.at?, hchild, Option.bind_some]
  rw [Function.comp_apply, PlacedLine.instance?, PlacedLine.below, hat, PlacedLine.instance?]

theorem instance?_root (t : Tag) (line : Line) :
    PlacedLine.instance? t ⟨[], line⟩ = if t.head.isInstance then some t else none := by
  rw [PlacedLine.instance?, Tag.at?, Option.filter_some]

/-- The instances with a line are those that are not below another one. -/
theorem filterMap_instance? (t : Tag) :
    (placedLines dialect level t).filterMap (PlacedLine.instance? t) = referred t := by
  induction t using Tag.induction_on_children generalizing level with
  | step head children ih =>
    have hroot (line : Line) := instance?_root ⟨head, children⟩ line
    have hbelow : (placedLinesOfList dialect (level + 1) 0 children).filterMap
        (PlacedLine.instance? ⟨head, children⟩) = referredList children := by
      rw [referredList_eq_flatMap]
      refine filterMap_placedLinesOfList fun i child hchild => ?_
      rw [Nat.zero_add, instance?_below hchild, ih child (List.mem_of_getElem? hchild)]
    rw [placedLines, referred]
    by_cases hinstance : head.isInstance
    · rw [if_pos hinstance, if_pos hinstance, List.filterMap_cons, hroot, if_pos hinstance]
      rfl
    · simp only [if_neg hinstance] at hroot ⊢
      by_cases hleaf : children.isEmpty
      · rw [if_pos hleaf, List.filterMap_cons, hroot, List.isEmpty_iff.mp hleaf]
        rfl
      · -- The lines around the children are written for the tag itself, which is no instance.
        rw [if_neg hleaf, List.filterMap_cons, hroot, List.filterMap_append, hbelow, List.filterMap_cons,
          hroot]
        exact List.append_nil _

theorem map_tag_references (dialect : Dialect) (t : Tag) :
    (references dialect t).map Reference.tag = referred t := by
  have htag (l : PlacedLine) : (l.reference? t).map Reference.tag = l.instance? t := by
    rw [PlacedLine.reference?, Option.map_map]
    exact Option.map_id'
  rw [references, List.map_filterMap, funext htag, filterMap_instance?]

theorem map_name_references (dialect : Dialect) (t : Tag) :
    (references dialect t).map (fun r => r.tag.name) = instanceNames t := by
  rw [instanceNames_eq_map, ← map_tag_references dialect, List.map_map]
  rfl

/-- The line of an instance is an empty element with its name and its attributes. -/
theorem line_of_mem_references {r : Reference} (h : r ∈ references dialect t) :
    r.line = ⟨r.position.length, .empty (instanceElement r.tag.head)⟩ := by
  obtain ⟨hl, hu, hinstance⟩ := mem_references_iff.mp h
  obtain ⟨u, hu', -, hline⟩ := of_mem_placedLines hl
  obtain rfl : r.tag = u := Option.some.inj (hu.symm.trans hu')
  have hfirst := hline.resolve_right fun hlast => hlast.1 (by rw [isOneLine, hinstance, Bool.true_or])
  rw [firstLine, if_pos hinstance, Nat.zero_add] at hfirst
  exact hfirst

/-! ## Imports that match -/

theorem nodup_eraseDups {α : Type} [BEq α] [LawfulBEq α] (xs : List α) : xs.eraseDups.Nodup := by
  match xs with
  | [] => exact List.nodup_nil
  | x :: xs =>
    rw [List.eraseDups_cons, List.nodup_cons, List.mem_eraseDups]
    refine ⟨fun hx => ?_, nodup_eraseDups _⟩
    rw [List.mem_filter, beq_self_eq_true] at hx
    cases hx.2
termination_by xs.length
decreasing_by exact Nat.lt_succ_of_le (List.length_filter_le _ _)

theorem map_component_imports (t : Tag) : (imports t).map Import.component = (instanceNames t).eraseDups := by
  rw [imports, List.map_map]
  exact List.map_id _

theorem mem_imports_iff {i : Import} :
    i ∈ imports t ↔ i.component ∈ instanceNames t ∧ i.localName = Text.capitalize i.component := by
  rw [imports, List.mem_map]
  constructor
  · rintro ⟨name, hname, rfl⟩
    exact ⟨List.mem_eraseDups.mp hname, rfl⟩
  · rintro ⟨hname, hlocal⟩
    exact ⟨i.component, List.mem_eraseDups.mpr hname, by rw [← hlocal]⟩

/-- The preamble is its lines, with an empty line behind them if there are any. -/
theorem exists_preamble_eq (dialect : Dialect) (t : Tag) :
    ∃ gap, (gap = "" ∨ gap = "\n") ∧ preamble dialect t =
      (if dialect = .elementBased then "import styles from './index.css'\n" else "") ++
        String.join ((imports t).map fun i =>
          "import " ++ i.localName ++ " from '@/components/" ++ i.component ++ "'\n") ++ gap := by
  have hstyles : stylesImport dialect =
      if dialect = .elementBased then "import styles from './index.css'\n" else "" := by
    cases dialect <;> rfl
  rw [preamble, ← hstyles]
  split
  next hnone =>
    refine ⟨"", .inl rfl, ?_⟩
    rw [String.append_empty]
    exact (String.isEmpty_iff.mp hnone).symm
  next => exact ⟨"\n", .inr rfl, rfl⟩

/-- How the imports of a module and the instances in its body belong together. -/
structure ImportsMatch (dialect : Dialect) (t : Tag) : Prop where
  /-- The module has the import of the stylesheet in front, if its dialect has one, then a line for each import, with
  its local name and the name in its path, and behind them the lines of its body. -/
  text : ∃ gap, (gap = "" ∨ gap = "\n") ∧ moduleText dialect t =
    (if dialect = .elementBased then "import styles from './index.css'\n" else "") ++
      String.join ((imports t).map fun i =>
        "import " ++ i.localName ++ " from '@/components/" ++ i.component ++ "'\n") ++ gap ++
      "const " ++ Text.capitalize (Text.sanitize t.name) ++ ": React.FC = () => \x7b\n  return (\n" ++
      "\n".intercalate ((placedLines dialect 0 t).map fun l => l.line.text) ++
      "\n  )\n\x7d\nexport default " ++ Text.capitalize (Text.sanitize t.name) ++ "\n"
  /-- Each instance that is written is imported once, in the order of the first mention of its name. -/
  components : (imports t).map Import.component =
    ((references dialect t).map fun r => r.tag.name).eraseDups
  once : ((imports t).map Import.component).Nodup
  /-- What is written for an instance is an empty element with the local name of the import of its name, and with
  the attributes of the instance. -/
  referred : ∀ r ∈ references dialect t, ∃ i ∈ imports t, i.component = r.tag.name ∧
    r.line = ⟨r.position.length, .empty ⟨i.localName, none, r.tag.head.attributes⟩⟩ ∧
    r.line.text = String.ofList (List.replicate (4 + 2 * r.position.length) ' ') ++ "<" ++ i.localName ++
      String.join (r.tag.head.attributes.map attributeText) ++ " />"
  /-- Every import is referred to by its local name. -/
  used : ∀ i ∈ imports t, ∃ r ∈ references dialect t, r.tag.name = i.component ∧
    ∃ element, r.line.form = .empty element ∧ element.name = i.localName
  /-- The instances that are written are those that are not below another instance. -/
  outermost : ∀ p u, t.at? p = some u → u.head.isInstance →
    ((∃ line, ⟨p, u, line⟩ ∈ references dialect t) ↔ t.AllAbove (fun h => ¬h.isInstance) p)
  /-- No line at all is written for what is below an instance. -/
  hidden : ∀ l ∈ placedLines dialect 0 t, t.AllAbove (fun h => ¬h.isInstance) l.position

/-- Where all names are sanitized, the local name of an import is the name of the element of its instances. -/
theorem importsMatch_of_sanitized (dialect : Dialect)
    (h : ∀ p u, t.at? p = some u → Text.sanitize u.name = u.name) : ImportsMatch dialect t := by
  have hname {r : Reference} (hr : r ∈ references dialect t) :
      (instanceElement r.tag.head).name = Text.capitalize r.tag.name := by
    show Text.capitalize (Text.sanitize r.tag.name) = _
    rw [h _ _ (mem_references_iff.mp hr).2.1]
  constructor
  case text =>
    obtain ⟨gap, hgap, hpreamble⟩ := exists_preamble_eq dialect t
    refine ⟨gap, hgap, ?_⟩
    rw [moduleText, hpreamble, body_eq_intercalate]
    rfl
  case components => rw [map_component_imports, map_name_references]
  case once =>
    rw [map_component_imports]
    exact nodup_eraseDups _
  case referred =>
    intro r hr
    have hmention : r.tag.name ∈ instanceNames t := by
      rw [← map_name_references dialect]
      exact List.mem_map_of_mem hr
    have hline : r.line =
        ⟨r.position.length, .empty ⟨Text.capitalize r.tag.name, none, r.tag.head.attributes⟩⟩ := by
      rw [line_of_mem_references hr, ← hname hr]
      rfl
    refine ⟨⟨Text.capitalize r.tag.name, r.tag.name⟩, mem_imports_iff.mpr ⟨hmention, rfl⟩, rfl, hline, ?_⟩
    rw [hline, text_empty]
  case used =>
    intro i hi
    obtain ⟨hmention, hlocal⟩ := mem_imports_iff.mp hi
    rw [← map_name_references dialect] at hmention
    obtain ⟨r, hr, hcomponent⟩ := List.mem_map.mp hmention
    refine ⟨r, hr, hcomponent, instanceElement r.tag.head, ?_, ?_⟩
    · rw [line_of_mem_references hr]
    · rw [hname hr, hlocal, hcomponent]
  case outermost =>
    intro p u hu hinstance
    constructor
    · rintro ⟨line, hr⟩
      obtain ⟨-, -, habove, -⟩ := of_mem_placedLines (mem_references_iff.mp hr).1
      exact habove
    · intro habove
      obtain ⟨line, hline⟩ := exists_mem_placedLines dialect 0 hu habove
      exact ⟨line, mem_references_iff.mpr ⟨hline, hu, hinstance⟩⟩
  case hidden =>
    intro l hl
    obtain ⟨-, -, habove, -⟩ := of_mem_placedLines hl
    exact habove

/-! ## Built trees -/

/-- **Imports and instances match.** A visible root has a tree, into which declared components may be put. In both
dialects the module then imports each component that its body has an instance of once, in the order of the first
mention, and nothing else; every instance is written under the local name of the import of its name; and what is
below an instance has neither a line nor an import. -/
theorem importsMatch_build {root : SceneNode} (unit : LengthUnit) (detection : Detection) (start : Counter)
    (components : List UserComponent) (hroot : root.visible) :
    ∃ t stop, Tag.build root unit detection start = (some t, stop) ∧
      ∀ dialect, ImportsMatch dialect (t.identify components) := by
  obtain ⟨t, stop, hbuilt⟩ := Tag.exists_build unit detection start hroot
  exact ⟨t, stop, hbuilt, fun dialect =>
    importsMatch_of_sanitized dialect fun _ _ hu => Tag.sanitize_name_of_identify hbuilt hu⟩

/-- A toolbar with two icons, the first of which has an instance in it, and with a layer for a button. -/
def toolbar : SceneNode :=
  .container .frame { name := "Toolbar" } {}
    [.container .componentInstance { name := "app icon" } {}
        [.container .componentInstance { name := "Dot" } {} []],
      .container .frame { name := "Row" } {}
        [.container .frame { name := "Submit Button" } {} [.text { name := "Label" } { characters := "Send" }],
          .container .componentInstance { name := "app icon" } {} []]]

/-- The icon is imported once for two elements, the declared button has an import, and the dot has none. -/
theorem importsMatch_build_toolbar :
    toolbar.visible ∧ ∃ t stop, Tag.build toolbar .px .identify {} = (some t, stop) ∧
      imports (t.identify [{ name := "Submit Button" }]) =
        [⟨"Appicon", "appicon"⟩, ⟨"SubmitButton", "SubmitButton"⟩] ∧
      ∀ dialect, (references dialect (t.identify [{ name := "Submit Button" }])).map Reference.position =
          [[0], [1, 0], [1, 1]] ∧
        ImportsMatch dialect (t.identify [{ name := "Submit Button" }]) := by
  have hroot : toolbar.visible := by decide
  obtain ⟨t, stop, hbuilt, hmatch⟩ := importsMatch_build .px .identify {} [{ name := "Submit Button" }] hroot
  have hvalues : (Tag.build toolbar .px .identify {}).1.map (fun t =>
      (imports (t.identify [{ name := "Submit Button" }]),
        [Dialect.elementBased, .componentBased].map fun dialect =>
          (references dialect (t.identify [{ name := "Submit Button" }])).map Reference.position)) =
      some ([⟨"Appicon", "appicon"⟩, ⟨"SubmitButton", "SubmitButton"⟩],
        [[[0], [1, 0], [1, 1]], [[0], [1, 0], [1, 1]]]) := by
    decide +kernel
  rw [hbuilt, Option.map_some, Option.some.injEq, Prod.mk.injEq] at hvalues
  obtain ⟨himports, hpositions⟩ := hvalues
  refine ⟨hroot, t, stop, hbuilt, himports, fun dialect => ⟨?_, hmatch dialect⟩⟩
  simp only [List.map_cons, List.map_nil, List.cons.injEq] at hpositions
  cases dialect with
  | elementBased => exact hpositions.1
  | componentBased => exact hpositions.2.1

end Markup

end Handoff
