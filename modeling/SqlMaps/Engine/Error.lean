import SqlMaps.Config.Error
import SqlMaps.Template.Error
import SqlMaps.Value.Field
import SqlMaps.Value.Description

/-! Why mapped statements cannot be run. -/
namespace SqlMaps

/-- How many rows or columns a result was to have. -/
inductive Expected where
  | one
  | zeroOrOne
  | several
  deriving DecidableEq

/-- The wording of an expectation. -/
def Expected.text : Expected → String
  | .one => "one"
  | .zeroOrOne => "zero or one"
  | .several => "higher than one"

/-- Why a migration cannot go on. -/
inductive MigrationFault where
  /-- A row whose id is no integer. -/
  | rowId (found : Option Value)
  | optimizeInside
  /-- A fault reported by an engine in its own words. -/
  | reported (text : String)
  deriving DecidableEq

/-- The wording of a fault. -/
def MigrationFault.message : MigrationFault → String
  | .rowId found => "row without integer ROWID: " ++ Value.describedOption found
  | .optimizeInside => "cannot optimize inside a transaction"
  | .reported text => text

/-- Why mapped statements cannot be run. -/
inductive RunError where
  /-- The database refused a statement. -/
  | database (text : String)
  | file (cause : FileError)
  | compile (cause : Template.CompileError)
  | config (cause : ConfigError)
  | field (cause : FieldError)
  | transactionNotOpen
  | transactionNotOwned
  /-- Another thread owns the transaction; the call can be made again once that has
  ended. -/
  | busy
  | resultCount (expected : Expected)
  | columnCount (expected : Expected)
  | columnNotFound (name : String)
  | selectKeyCount (found : Nat)
  | missingKeyProperty
  | noSnapshot (table text : String)
  | migration (cause : MigrationFault)
  deriving DecidableEq

namespace RunError

/-- The wording of an error. -/
def message : RunError → String
  | .database text => "database error: " ++ text
  | .file cause => "I/O error: " ++ cause.message
  | .compile cause => cause.message
  | .config cause => cause.message
  | .field cause => cause.message
  | .transactionNotOpen => "the transaction has not begun"
  | .transactionNotOwned => "the transaction is owned by another thread"
  | .busy => "another thread has begun a transaction"
  | .resultCount expected => "the result count should be " ++ expected.text
  | .columnCount expected => "the column count should be " ++ expected.text
  | .columnNotFound name => "no such column in result: " ++ name
  | .selectKeyCount found =>
    "sub query count should be one, found " ++ Number.intText found
  | .missingKeyProperty => "selectKey has no 'keyProperty' attribute"
  | .noSnapshot table text => "cannot snapshot table '" ++ table ++ "': " ++ text
  | .migration cause => "migration error: " ++ cause.message

/-- What has to be looked at to mend an error. -/
inductive Kind where
  /-- Templates, settings, or the query that was asked for. -/
  | configuration
  /-- The transaction, or the shape of a result. -/
  | state
  /-- The database or the file system. -/
  | io
  | migration
  deriving DecidableEq

/-- The kind of an error. -/
def kind : RunError → Kind
  | .database _ => .io
  | .file _ => .io
  | .compile _ => .configuration
  | .config _ => .configuration
  | .missingKeyProperty => .configuration
  | .selectKeyCount _ => .configuration
  | .field _ => .state
  | .transactionNotOpen => .state
  | .transactionNotOwned => .state
  | .busy => .state
  | .resultCount _ => .state
  | .columnCount _ => .state
  | .columnNotFound _ => .state
  | .noSnapshot .. => .migration
  | .migration _ => .migration

end RunError

end SqlMaps
