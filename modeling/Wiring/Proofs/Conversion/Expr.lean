import Wiring.Conversion.Java

/-!
# Conversions as expressions with variables

The Java expressions that conversions are written as, with as much of their structure as it takes to
say which variables a function binds, which it uses and which are in scope where it stands. What
`render` writes is the text of such an expression.
-/

namespace Wiring.Conversion.Java

/-! ## Expressions -/

mutual

/-- A Java expression about a value that is looked up, which is an operand in it. A class is named as
such and is no variable. -/
inductive Expr
  | value
  | var (name : String)
  | literal (text : String)
  | type (name : String)
  /-- A method that is called without an argument. -/
  | ask (receiver : Expr) (method : String)
  | call (receiver : Expr) (method : String) (argument : Expr)
  | create (type : String) (argument : Expr)
  | cast (type : String) (e : Expr)
  | function (parameter : String) (body : Body)

/-- What stands in the body of a function. -/
inductive Body
  | returns (e : Expr)
  | throws (e : Expr)
  | throwsIf (condition e : Expr) (rest : Body)
  | tries (body : Body)
  /-- One more handler behind a `try`. -/
  | catches (tried : Body) (type parameter : String) (handler : Body)

end

mutual

/-- The expression as it is written, with `v` for the value. -/
def Expr.text (v : String) : Expr → String
  | .value => v
  | .var name => name
  | .literal text => text
  | .type name => name
  | .ask receiver method => receiver.text v ++ "." ++ method ++ "()"
  | .call receiver method argument =>
    receiver.text v ++ "." ++ method ++ "(" ++ argument.text v ++ ")"
  | .create type argument => "new " ++ type ++ "(" ++ argument.text v ++ ")"
  | .cast type e => "((" ++ type ++ ") " ++ e.text v ++ ")"
  | .function parameter body => parameter ++ " -> \x7b " ++ body.text v ++ " \x7d"

def Body.text (v : String) : Body → String
  | .returns e => "return " ++ e.text v ++ ";"
  | .throws e => "throw " ++ e.text v ++ ";"
  | .throwsIf condition e rest =>
    "if (" ++ condition.text v ++ ") throw " ++ e.text v ++ "; " ++ rest.text v
  | .tries body => "try \x7b " ++ body.text v ++ " \x7d"
  | .catches tried type parameter handler =>
    tried.text v ++ " catch (" ++ type ++ " " ++ parameter ++ ") \x7b " ++ handler.text v ++ " \x7d"

end

/-! ## The value -/

mutual

/-- How often the value is written. -/
def Expr.written : Expr → Nat
  | .value => 1
  | .var _ | .literal _ | .type _ => 0
  | .ask receiver _ => receiver.written
  | .call receiver _ argument => receiver.written + argument.written
  | .create _ argument => argument.written
  | .cast _ e => e.written
  | .function _ body => body.written

def Body.written : Body → Nat
  | .returns e => e.written
  | .throws e => e.written
  | .throwsIf condition e rest => condition.written + e.written + rest.written
  | .tries body => body.written
  | .catches tried _ _ handler => tried.written + handler.written

end

/-- A text that is put together from fixed texts and `n` times the value. -/
inductive Composed : Nat → (String → String) → Prop
  | fixed (s : String) : Composed 0 fun _ => s
  | value : Composed 1 fun v => v
  | append {m n : Nat} {f g : String → String} (hf : Composed m f) (hg : Composed n g) :
    Composed (m + n) fun v => f v ++ g v

namespace Composed

variable {n : Nat} {f : String → String}

theorem before (s : String) (h : Composed n f) : Composed n fun v => s ++ f v := by
  simpa only [Nat.zero_add] using (Composed.fixed s).append h

theorem behind (h : Composed n f) (s : String) : Composed n fun v => f v ++ s := h.append (.fixed s)

/-- A text without the value is the same for all values, and one with it stands around it. -/
theorem exists_eq (h : Composed n f) :
    (n = 0 → ∃ s, ∀ v, f v = s) ∧ (n = 1 → ∃ before after, ∀ v, f v = before ++ v ++ after) := by
  induction h with
  | fixed s => exact ⟨fun _ => ⟨s, fun _ => rfl⟩, nofun⟩
  | value => exact ⟨nofun, fun _ => ⟨"", "", fun v => by rw [String.empty_append, String.append_empty]⟩⟩
  | @append m n f g _ _ ihf ihg =>
    constructor
    · intro hzero
      obtain ⟨s, hf⟩ := ihf.1 (by omega)
      obtain ⟨s', hg⟩ := ihg.1 (by omega)
      exact ⟨s ++ s', fun v => by simp only [hf, hg]⟩
    · intro hone
      obtain ⟨hm, hn⟩ | ⟨hm, hn⟩ : m = 0 ∧ n = 1 ∨ m = 1 ∧ n = 0 := by omega
      · obtain ⟨s, hf⟩ := ihf.1 hm
        obtain ⟨before, after, hg⟩ := ihg.2 hn
        exact ⟨s ++ before, after, fun v => by simp only [hf, hg, String.append_assoc]⟩
      · obtain ⟨before, after, hf⟩ := ihf.2 hm
        obtain ⟨s, hg⟩ := ihg.1 hn
        exact ⟨before, after ++ s, fun v => by simp only [hf, hg, String.append_assoc]⟩

end Composed

mutual

/-- An expression is put together from as many values as it counts. -/
theorem Expr.composed : (e : Expr) → Composed e.written (e.text ·)
  | .value => .value
  | .var name => .fixed name
  | .literal text => .fixed text
  | .type name => .fixed name
  | .ask receiver method => ((receiver.composed.behind ".").behind method).behind "()"
  | .call receiver method argument =>
    ((((receiver.composed.behind ".").behind method).behind "(").append argument.composed).behind ")"
  | .create type argument => (argument.composed.before ("new " ++ type ++ "(")).behind ")"
  | .cast type e => (e.composed.before ("((" ++ type ++ ") ")).behind ")"
  | .function parameter body => (body.composed.before (parameter ++ " -> \x7b ")).behind " \x7d"

theorem Body.composed : (b : Body) → Composed b.written (b.text ·)
  | .returns e => (e.composed.before "return ").behind ";"
  | .throws e => (e.composed.before "throw ").behind ";"
  | .throwsIf condition e rest =>
    ((((condition.composed.before "if (").behind ") throw ").append e.composed).behind "; ").append
      rest.composed
  | .tries body => (body.composed.before "try \x7b ").behind " \x7d"
  | .catches tried type parameter handler =>
    (((((tried.composed.behind " catch (").behind type).behind " ").behind parameter).behind
      ") \x7b ").append handler.composed |>.behind " \x7d"

end

/-- How often the value is evaluated when the expression is. A function is not called when it is
evaluated; what stands in it is evaluated as often as it is called. -/
def Expr.evaluated : Expr → Nat
  | .value => 1
  | .var _ | .literal _ | .type _ => 0
  | .ask receiver _ => receiver.evaluated
  | .call receiver _ argument => receiver.evaluated + argument.evaluated
  | .create _ argument => argument.evaluated
  | .cast _ e => e.evaluated
  | .function _ _ => 0

/-! ## Variables -/

mutual

/-- The variables that are used and not bound, in order and as often as they are used. -/
def Expr.free : Expr → List String
  | .value | .literal _ | .type _ => []
  | .var name => [name]
  | .ask receiver _ => receiver.free
  | .call receiver _ argument => receiver.free ++ argument.free
  | .create _ argument => argument.free
  | .cast _ e => e.free
  | .function parameter body => body.free.filter (· ≠ parameter)

def Body.free : Body → List String
  | .returns e => e.free
  | .throws e => e.free
  | .throwsIf condition e rest => condition.free ++ e.free ++ rest.free
  | .tries body => body.free
  | .catches tried _ parameter handler => tried.free ++ handler.free.filter (· ≠ parameter)

end

/-- The variables that the handlers of a body bind. -/
def Body.caught : Body → List String
  | .returns _ | .throws _ => []
  | .throwsIf _ _ rest => rest.caught
  | .tries body => body.caught
  | .catches tried _ parameter handler => tried.caught ++ parameter :: handler.caught

/-- A function in an expression, by its variables. -/
structure Function where
  /-- The variables that are bound where it stands, the outermost first. -/
  scope : List String
  parameter : String
  /-- The variables of its handlers. -/
  caught : List String
  /-- The variables that its body uses and does not bind. -/
  inputs : List String
deriving DecidableEq, Repr

def Function.binds (f : Function) : List String := f.parameter :: f.caught

mutual

/-- The functions in an expression, each before those in its body. -/
def Expr.functions (scope : List String) : Expr → List Function
  | .value | .var _ | .literal _ | .type _ => []
  | .ask receiver _ => receiver.functions scope
  | .call receiver _ argument => receiver.functions scope ++ argument.functions scope
  | .create _ argument => argument.functions scope
  | .cast _ e => e.functions scope
  | .function parameter body =>
    ⟨scope, parameter, body.caught, body.free⟩ :: body.functions (scope ++ [parameter])

def Body.functions (scope : List String) : Body → List Function
  | .returns e => e.functions scope
  | .throws e => e.functions scope
  | .throwsIf condition e rest =>
    condition.functions scope ++ e.functions scope ++ rest.functions scope
  | .tries body => body.functions scope
  | .catches tried _ parameter handler =>
    tried.functions scope ++ handler.functions (scope ++ [parameter])

end

/-! ## Conversions -/

/-- The variable for an element of a list inside `depth` lists. -/
def item (depth : Nat) : String := "e" ++ toString depth

/-- The variable for what is caught while such an element is converted. -/
def caught (depth : Nat) : String := "x" ++ toString depth

/-- The function that takes the first character of a string, and refuses a string without one. -/
def charFunction : Expr :=
  .function "s"
    (.throwsIf (.ask (.var "s") "isEmpty")
      (.create "IllegalArgumentException" (.literal ("\"" ++ emptyCharMessage ++ "\"")))
      (.returns (.call (.var "s") "charAt" (.literal "0"))))

def parseExpr (e : Expr) : Primitive → Expr
  | .boolean => .call (.type "Boolean") "parseBoolean" e
  | .byte => .call (.type "Byte") "parseByte" e
  | .short => .call (.type "Short") "parseShort" e
  | .int => .call (.type "Integer") "parseInt" e
  | .long => .call (.type "Long") "parseLong" e
  | .float => .call (.type "Float") "parseFloat" e
  | .double => .call (.type "Double") "parseDouble" e
  | .char => .call (.cast "java.util.function.Function<String, Character>" charFunction) "apply" e

/-- The body of the function that converts the elements of a list inside `depth` lists to `converted`.
What the conversion throws and need not be declared is thrown on, other exceptions become the cause of
one that need not. -/
def elementBody (depth : Nat) (converted : Expr) : Body :=
  .catches
    (.catches (.tries (.returns converted)) "RuntimeException" (caught depth)
      (.throws (.var (caught depth))))
    "Exception" (caught depth)
    (.throws (.create "IllegalArgumentException" (.var (caught depth))))

/-- The conversion of `e` inside `depth` lists, as `renderAt` writes it. -/
def exprAt (depth : Nat) (e : Expr) : Conversion → Expr
  | .identity => e
  | .parsePrimitive kind => parseExpr e kind
  | .valueOf target => .call (.type (typeName target)) "valueOf" e
  | .fromString target => .call (.type (typeName target)) "fromString" e
  | .construct target => .create (typeName target) e
  | .eachElement _ element =>
    .call
      (.call (.ask e "stream") "map"
        (.function (item depth)
          (elementBody depth (exprAt (depth + 1) (.var (item depth)) element))))
      "collect" (.ask (.type "java.util.stream.Collectors") "toList")

/-- The expression that `render` writes. -/
def expr (c : Conversion) : Expr := exprAt 0 .value c

/-! ## What is written -/

variable {depth : Nat} {e converted : Expr} {v : String}

theorem text_parseExpr (kind : Primitive) :
    (parseExpr e kind).text v = parseCall kind ++ e.text v ++ ")" := by
  cases kind <;> rfl

/-- What stands between a class and the argument of its method is one text. -/
theorem text_call_type (type method : String) :
    (Expr.call (.type type) method e).text v = type ++ ("." ++ method ++ "(") ++ e.text v ++ ")" := by
  simp only [Expr.text, String.append_assoc]

theorem text_elementBody :
    (elementBody depth converted).text v =
      "try \x7b return " ++ converted.text v ++ "; \x7d " ++
      "catch (RuntimeException " ++ caught depth ++ ") \x7b throw " ++ caught depth ++ "; \x7d " ++
      "catch (Exception " ++ caught depth ++ ") \x7b throw new IllegalArgumentException(" ++
      caught depth ++ "); \x7d" := by
  apply String.toList_inj.1
  simp [elementBody, Expr.text, Body.text]

/-- What is written around the body of the function for the elements of a list. -/
theorem text_eachElement (type : TypeRef) (element : Conversion) :
    (exprAt depth e (.eachElement type element)).text v =
      e.text v ++ ".stream().map(" ++ item depth ++ " -> \x7b " ++
        (elementBody depth (exprAt (depth + 1) (.var (item depth)) element)).text v ++
      " \x7d).collect(java.util.stream.Collectors.toList())" := by
  have hstream : ".stream().map(" = "." ++ "stream" ++ "()" ++ "." ++ "map" ++ "(" := rfl
  have hcollect : " \x7d).collect(java.util.stream.Collectors.toList())" =
      " \x7d" ++ ")" ++ "." ++ "collect" ++ "(" ++
        ("java.util.stream.Collectors" ++ "." ++ "toList" ++ "()") ++ ")" := rfl
  rw [hstream, hcollect]
  simp only [exprAt, Expr.text, String.append_assoc]

/-- **What is rendered is the text of the expression.** -/
theorem text_exprAt (c : Conversion) : (exprAt depth e c).text v = renderAt depth (e.text v) c := by
  induction c generalizing depth e with
  | identity => rfl
  | parsePrimitive kind => exact text_parseExpr kind
  | valueOf target => exact text_call_type (typeName target) "valueOf"
  | fromString target => exact text_call_type (typeName target) "fromString"
  | construct target => rfl
  | eachElement type element ih =>
    have hitem : (exprAt (depth + 1) (.var (item depth)) element).text v =
        renderAt (depth + 1) (item depth) element := ih
    -- the text is parted where the body of the function begins and where it ends
    have hopen : " -> \x7b try \x7b return " = " -> \x7b " ++ "try \x7b return " := rfl
    have hclose : "); \x7d \x7d).collect(java.util.stream.Collectors.toList())" =
        "); \x7d" ++ " \x7d).collect(java.util.stream.Collectors.toList())" := rfl
    rw [text_eachElement, text_elementBody, hitem]
    simp only [renderAt, hopen, hclose, item, caught, String.append_assoc]

end Wiring.Conversion.Java
