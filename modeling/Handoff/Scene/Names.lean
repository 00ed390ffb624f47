/-
# Handoff.Scene.Names — the names that scenes use

Scenes name kinds and choices with words of capitals. Each type has one list of names; readers look names
up in it and writers look the choice up, so the two cannot disagree.
-/

import Handoff.Scene.Node

namespace Handoff

def Positioning.names : List (String × Positioning) :=
  [("AUTO", .auto), ("ABSOLUTE", .absolute)]

def LayoutMode.names : List (String × LayoutMode) :=
  [("NONE", .none), ("HORIZONTAL", .horizontal), ("VERTICAL", .vertical)]

def MainAlign.names : List (String × MainAlign) :=
  [("MIN", .min), ("MAX", .max), ("CENTER", .center), ("SPACE_BETWEEN", .spaceBetween)]

def CrossAlign.names : List (String × CrossAlign) :=
  [("MIN", .min), ("MAX", .max), ("CENTER", .center), ("BASELINE", .baseline)]

def Sizing.names : List (String × Sizing) :=
  [("FIXED", .fixed), ("AUTO", .auto)]

def TextAlign.names : List (String × TextAlign) :=
  [("LEFT", .left), ("RIGHT", .right), ("CENTER", .center), ("JUSTIFIED", .justified)]

def VerticalAlign.names : List (String × VerticalAlign) :=
  [("TOP", .top), ("CENTER", .center), ("BOTTOM", .bottom)]

def TextDecoration.names : List (String × TextDecoration) :=
  [("NONE", .none), ("UNDERLINE", .underline), ("STRIKETHROUGH", .strikethrough)]

def ContainerRole.names : List (String × ContainerRole) :=
  [("FRAME", .frame), ("INSTANCE", .componentInstance), ("COMPONENT", .component)]

def ShapeForm.names : List (String × ShapeForm) :=
  [("RECTANGLE", .rectangle), ("ELLIPSE", .ellipse), ("POLYGON", .polygon), ("STAR", .star),
   ("LINE", .line), ("VECTOR", .vector)]

end Handoff
