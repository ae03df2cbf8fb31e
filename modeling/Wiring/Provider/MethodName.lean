import Wiring.Text.Sha256
import Wiring.TypeRef.Basic

/-!
# Names of provider methods

A provider method is named for the parameter, the type and the default that it provides:
`provideEnvPortAsIntWithDefault4a44dc15`.
-/

namespace Wiring.MethodName

/-- The maximal runs of ASCII letters and digits, in order. -/
def words (cs : List Char) : List (List Char) :=
  match h : cs.dropWhile (!·.isAlphanum) with
  | [] => []
  | c :: rest =>
    have : (rest.dropWhile (·.isAlphanum)).length < cs.length := by
      have := (List.dropWhile_suffix (!·.isAlphanum) (l := cs)).length_le
      have := (List.dropWhile_suffix (·.isAlphanum) (l := rest)).length_le
      simp_all; omega
    (c :: rest.takeWhile (·.isAlphanum)) :: words (rest.dropWhile (·.isAlphanum))
termination_by cs.length

/-- The first letter in upper case, the others in lower case. -/
def camelWord : List Char → List Char
  | [] => []
  | c :: cs => c.toUpper :: cs.map Char.toLower

/-- The words of a name, joined in upper camel case: `DatabaseUrl` for `DATABASE_URL`. -/
def upperCamel (name : String) : String :=
  String.ofList ((words name.toList).flatMap camelWord)

/-- The letters and digits of a word, the first of them in upper case. -/
def capitalize (word : String) : String :=
  match word.toList.filter Char.isAlphanum with
  | [] => ""
  | c :: cs => String.ofList (c.toUpper :: cs)

/-- The first eight hexadecimal digits of the SHA-256 digest of a text. -/
def shortSignature (text : String) : String :=
  String.ofList ((Text.Sha256.hexDigest text.toUTF8.toList).take 8)

mutual

/-- A type in upper camel case, by its simple names: `ListOfInteger`, `MapOfKAndV`, `ByteArray`. -/
def typeFragment : TypeRef → String
  | .void => "Void"
  | .primitive kind => capitalize kind.keyword
  | .declared name [] => capitalize (Text.simpleName name)
  | .declared name (arg :: args) =>
    capitalize (Text.simpleName name) ++ "Of" ++ typeFragment arg ++ fragmentTail args
  | .wildcard => "Any"
  | .wildcardExtends bound => "Extends" ++ typeFragment bound
  | .wildcardSuper bound => "Super" ++ typeFragment bound
  | .array component => typeFragment component ++ "Array"

/-- The arguments after the first, each behind its joining word. -/
def fragmentTail : List TypeRef → String
  | [] => ""
  | arg :: args => "And" ++ typeFragment arg ++ fragmentTail args

end

/-- The name of the provider method of one representation. The type of a string is not named. -/
def compose (tag name : String) (type : TypeRef) (default : Option String) : String :=
  "provide" ++ tag ++ upperCamel name ++
  (if type.isString then "" else "As" ++ typeFragment type) ++
  (match default with
    | some value => "WithDefault" ++ shortSignature value
    | none => "")

end Wiring.MethodName
