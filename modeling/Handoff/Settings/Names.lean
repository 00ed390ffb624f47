/-
# Handoff.Settings.Names — the names that settings use

Every choice that a user can make has a name. Whether instances are recognised has two names for each
answer; the first of them is the one that is written.
-/

import Handoff.Json.Record
import Handoff.Stylesheet.Sheet
import Handoff.Tag.Build

namespace Handoff

def LengthUnit.names : List (String × LengthUnit) :=
  [("px", .px), ("rem", .rem), ("remAs10px", .remAs10px)]

def Detection.names : List (String × Detection) :=
  [("identify", .identify), ("1", .identify), ("ignore", .ignore), ("0", .ignore)]

def Stylesheet.Dialect.names : List (String × Stylesheet.Dialect) :=
  [("css", .flat), ("styled-components", .scoped), ("tailwind", .utility)]

def Markup.Dialect.names : List (String × Markup.Dialect) :=
  [("elementBased", .elementBased), ("componentBased", .componentBased)]

end Handoff
