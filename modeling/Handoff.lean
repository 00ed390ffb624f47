import Handoff.Proofs.Markup.Access
import Handoff.Proofs.Markup.Content
import Handoff.Proofs.Markup.Lookup
import Handoff.Proofs.Markup.Outline
import Handoff.Proofs.Markup.Referred
import Handoff.Proofs.Markup.Scope
import Handoff.Proofs.Markup.Wrapper
import Handoff.Proofs.Scene.Codec
import Handoff.Proofs.Scene.Paints
import Handoff.Proofs.Scene.Sizes
import Handoff.Proofs.Scene.Unread
import Handoff.Proofs.Session.Generation
import Handoff.Proofs.Session.Unwritten
import Handoff.Proofs.Style.Expanded
import Handoff.Proofs.Stylesheet.Grammar
import Handoff.Proofs.Stylesheet.Placed
import Handoff.Proofs.Stylesheet.Scoped
import Handoff.Proofs.Stylesheet.Tokens
import Handoff.Proofs.Tag.Anchor
import Handoff.Proofs.Tag.Detection
import Handoff.Proofs.Tag.Hidden
import Handoff.Proofs.Tag.Lengths
import Handoff.Proofs.Tag.Paints
import Handoff.Proofs.Tag.Selector
import Handoff.Proofs.Tag.Shown
import Handoff.Proofs.Tag.Walk
import Handoff.Scene.Builder
