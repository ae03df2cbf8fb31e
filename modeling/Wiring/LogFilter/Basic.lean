import Wiring.LogFilter.Directive
import Wiring.Order.Ascending

/-!
# Log filters

    filter = [ directive ] { "," [ directive ] }

Which log messages are wanted. A filter keeps two collections of directives, those that its messages
alone decide on and those that need the spans or the fields that messages have; a directive that
only names a field is in both. Each collection is written in its own order.
-/

namespace Wiring

/-- The directives of a filter, as they were given. -/
structure LogFilter where
  directives : List LogFilter.Directive
deriving DecidableEq, Repr

namespace LogFilter

/-- The directives in their order; of two about one subject the later counts. -/
def ordered (directives : List Directive) : List Directive :=
  directives.foldl (fun ds d => Ascending.insert Directive.compare d ds) []

/-- The directives that the place of a message in the program decides on. -/
def static (f : LogFilter) : List Directive :=
  ordered (f.directives.filter fun d => d.span.isNone && d.field.all (·.value.isNone))

/-- The directives that need what a message carries. -/
def dynamic (f : LogFilter) : List Directive :=
  ordered (f.directives.filter fun d => d.span.isSome || d.field.isSome)

def text (f : LogFilter) : String :=
  ",".intercalate ((f.static ++ f.dynamic).map Directive.text)

/-- Reads a filter. -/
def ofText? (text : String) : Option LogFilter :=
  (((text.splitOn ",").filter (!·.isEmpty)).mapM Directive.ofText?).map (⟨·⟩)

end LogFilter

end Wiring
