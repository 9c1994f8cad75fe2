import SqlMaps.Text.Blank
import SqlMaps.Text.Case

/-! The kinds of elements in a template: the statements it holds, and the directives
inside them. An element that is neither only groups what it contains. -/
namespace SqlMaps.Template

/-- The statements a template can hold. -/
inductive StatementKind where
  | select
  | insert
  | update
  | delete
  | drop
  deriving DecidableEq

/-- What a conditional asks of a bound value. -/
inductive Condition where
  | isNull
  | isNotNull
  | isEqual
  | isNotEqual
  deriving DecidableEq

/-- The directives inside a statement. -/
inductive DirectiveKind where
  | dynamic
  | conditional (condition : Condition)
  | selectKey
  deriving DecidableEq

/-- The kind of a part of a compiled query. -/
inductive Kind where
  | statement (kind : StatementKind)
  | directive (kind : DirectiveKind)
  deriving DecidableEq

namespace StatementKind

/-- Every kind of statement. -/
def all : List StatementKind := [.select, .insert, .update, .delete, .drop]

/-- The keyword that the statement starts with; it is also its element name. -/
def tag : StatementKind → String
  | .select => "SELECT"
  | .insert => "INSERT"
  | .update => "UPDATE"
  | .delete => "DELETE"
  | .drop => "DROP"

/-- The statement of an element name, in any letter case. -/
def ofTag? (name : String) : Option StatementKind :=
  all.find? fun kind => Text.sameLetters kind.tag.toList name.toList

end StatementKind

namespace DirectiveKind

/-- Every kind of directive. -/
def all : List DirectiveKind :=
  [.dynamic, .conditional .isNull, .conditional .isNotNull, .conditional .isEqual,
    .conditional .isNotEqual, .selectKey]

/-- The element name. -/
def tag : DirectiveKind → String
  | .dynamic => "dynamic"
  | .conditional .isNull => "isNull"
  | .conditional .isNotNull => "isNotNull"
  | .conditional .isEqual => "isEqual"
  | .conditional .isNotEqual => "isNotEqual"
  | .selectKey => "selectKey"

/-- The directive of an element name, spelled exactly. -/
def ofTag? (name : String) : Option DirectiveKind :=
  all.find? fun kind => kind.tag = name

end DirectiveKind

namespace Kind

/-- The element name. -/
def tag : Kind → String
  | .statement kind => kind.tag
  | .directive kind => kind.tag

/-- Whether the part is a statement. -/
def isStatement : Kind → Bool
  | .statement _ => true
  | .directive _ => false

/-- Whether the part asks something of a bound value. -/
def isConditional : Kind → Bool
  | .directive (.conditional _) => true
  | _ => false

/-- The kind of an element name: a statement's in any letter case, or a directive's. -/
def ofTag? (name : String) : Option Kind :=
  (StatementKind.ofTag? name).map .statement <|> (DirectiveKind.ofTag? name).map .directive

end Kind

/-- The words after which a fragment needs no prepend of its own. -/
def keywords : List String :=
  ["SELECT", "FROM", "AS", "INSERT", "UPDATE", "DELETE", "VALUES", "SET", "WHERE", "AND", "OR"]

/-- Whether the text is one of the keywords, in any letter case and with white space
around it. -/
def isKeyword (word : String) : Bool :=
  keywords.any fun keyword => Text.sameLetters keyword.toList (Text.trim word.toList)

theorem DirectiveKind.ofTag?_tag (kind : DirectiveKind) : ofTag? kind.tag = some kind := by
  revert kind
  have : ∀ kind ∈ all, ofTag? kind.tag = some kind := by decide
  intro kind
  apply this
  rcases kind with _ | (_ | _ | _ | _) | _ <;> decide

theorem StatementKind.ofTag?_tag (kind : StatementKind) : ofTag? kind.tag = some kind := by
  cases kind <;> decide

end SqlMaps.Template
