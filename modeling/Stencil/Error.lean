import Stencil.Text.Replace

/-!
# What can go wrong

Every failure is a **cause**. A text that cannot be cut into tokens, tags that do not
fit together, a program that must not be loaded, a template that is not there or cannot
be read, a render that goes wrong, and data that no template value can hold are the
seven **kinds** of errors. A date pattern that means nothing and a list that cannot be
sorted are none of them: nothing can go on after these. The wording of all failures is in
the `message` functions here and nowhere else.
-/

namespace Stencil

/-- Why a source text cannot be cut into tokens. -/
inductive ScanFault where
  | unterminatedComment
  | unterminatedExpression
  | unterminatedBlock
  | unterminatedString
  | unexpectedChar (c : Char)
  deriving DecidableEq, Repr

def ScanFault.message : ScanFault → String
  | .unterminatedComment => "Unterminated comment"
  | .unterminatedExpression => "Unterminated expression"
  | .unterminatedBlock => "Unterminated block"
  | .unterminatedString => "Unterminated string literal"
  | .unexpectedChar c => "Unexpected character '" ++ c.toString ++ "'"

/-- Why tokens do not form an expression, a tag or a template. -/
inductive GrammarFault where
  /-- Something else, or nothing, where an identifier belongs. -/
  | identifierExpected (found : Option String)
  /-- Something else, or nothing, where a certain operator belongs. -/
  | operatorExpected (op : String) (found : Option String)
  | attributeExpected (found : Option String)
  | leftoverInTag (token tag : String)
  | leftoverAfter (token expression : String)
  | expressionEnds
  | notInExpression (token : String)
  | badMapKey (token : String)
  | mapEnds
  | badNumber (text : String)
  | emptyTag
  | notATagName (token : String)
  | unknownTag (tag : String)
  | tagAtRoot (tag : String)
  | tagInside (tag opener : String) (expected : List String)
  | unclosed (opener : String) (expected : List String)
  | closingName (tag name found : String)
  | wordExpected (word tag : String)
  | missingExpected
  /-- A fault that an extension of the language reports in its own words. -/
  | custom (text : String)
  deriving DecidableEq, Repr

/-- A text between single quotes. -/
def inQuotes (s : String) : String := "'" ++ s ++ "'"

/-- The tags that could have come, each between quotes. -/
def alternatives (tags : List String) : String :=
  Text.join " or " (tags.map inQuotes)

def GrammarFault.message : GrammarFault → String
  | .identifierExpected (some t) => "Expected an identifier but found " ++ inQuotes t
  | .identifierExpected none => "Expected an identifier but reached the end of the tag"
  | .operatorExpected op (some t) => "Expected " ++ inQuotes op ++ " but found " ++ inQuotes t
  | .operatorExpected op none => "Expected " ++ inQuotes op ++ " but reached the end of the tag"
  | .attributeExpected (some t) => "Expected an attribute name after '.' but found " ++ inQuotes t
  | .attributeExpected none => "Expected an attribute name after '.'"
  | .leftoverInTag token tag => "Unexpected token " ++ inQuotes token ++ " in tag " ++ inQuotes tag
  | .leftoverAfter token e =>
    "Unexpected token " ++ inQuotes token ++ " after expression " ++ inQuotes e
  | .expressionEnds => "Unexpected end of expression"
  | .notInExpression token => "Unexpected token " ++ inQuotes token ++ " in expression"
  | .badMapKey token => "Invalid map key " ++ inQuotes token
  | .mapEnds => "Unterminated map literal"
  | .badNumber text => "Invalid number literal " ++ inQuotes text
  | .emptyTag => "Empty block tag"
  | .notATagName token =>
    "Block expected a tag name as first token but found " ++ inQuotes token
  | .unknownTag tag => "Invalid block type " ++ inQuotes tag
  | .tagAtRoot tag => "Unexpected tag " ++ inQuotes tag ++ " on template root"
  | .tagInside tag opener expected =>
    "Unexpected tag " ++ inQuotes tag ++ " inside " ++ inQuotes opener ++ ", expected " ++
      alternatives expected
  | .unclosed opener expected =>
    "Unclosed tag " ++ inQuotes opener ++ ": expected " ++ alternatives expected
  | .closingName tag name found =>
    "Expected '" ++ tag ++ " " ++ name ++ "' but found '" ++ tag ++ " " ++ found ++ "'"
  | .wordExpected word tag => "Expected " ++ inQuotes word ++ " in " ++ inQuotes tag ++ " tag"
  | .missingExpected => "Expected 'missing' after 'ignore'"
  | .custom text => text

/-- Why a compiled program is not loaded. -/
inductive LoadFault where
  | extendsInBlock (block : String)
  | extendsInMacro (name : String)
  | duplicateParameter (parameter name : String)
  deriving DecidableEq, Repr

def LoadFault.message : LoadFault → String
  | .extendsInBlock block => "'extends' is not allowed inside block " ++ inQuotes block
  | .extendsInMacro name => "'extends' is not allowed inside macro " ++ inQuotes name
  | .duplicateParameter parameter name =>
    "Duplicate parameter " ++ inQuotes parameter ++ " in macro " ++ inQuotes name

/-- Why a file cannot be read as text. -/
inductive FileFault where
  | missing
  | isDirectory
  | notDirectory
  | nameTooLong
  /-- The path holds the character U+0000, which no path can. -/
  | nulInPath
  | notText
  deriving DecidableEq, Repr

def FileFault.message : FileFault → String
  | .missing => "No such file or directory (os error 2)"
  | .isDirectory => "Is a directory (os error 21)"
  | .notDirectory => "Not a directory (os error 20)"
  | .nameTooLong => "File name too long (os error 36)"
  | .nulInPath => "file name contained an unexpected NUL byte"
  | .notText => "stream did not contain valid UTF-8"

/-- Why a template does not become an asset. -/
inductive AssetFault where
  /-- The name is taken; the source is a file or the memory of the host. -/
  | duplicate (name source : String)
  | unreadable (path : String) (fault : FileFault)
  deriving DecidableEq, Repr

def AssetFault.message : AssetFault → String
  | .duplicate name source =>
    "Duplicate template " ++ inQuotes name ++ " registered from " ++ inQuotes source
  | .unreadable path fault => "Failed to read template: " ++ path ++ ": " ++ fault.message

/-- Why an expression has no value or an instruction cannot run. Values appear by the
names of their types, expressions by their printed form. -/
inductive RenderFault where
  | operands (op left right : String)
  | divisionByZero
  | moduloByZero
  | notNegatable (type : String)
  | notIterable (type : String)
  | numberExpected (filter type : String)
  | badDate (text reason : String)
  | badTimestamp (seconds : Int64)
  | notADate (type : String)
  | rangeArguments
  | rangeStep
  | rangeStepZero
  | rangeEnds (first last : String)
  | undefinedVariable (expression : String)
  | unknownFilter (name : String)
  | unknownTest (name : String)
  | unknownFunction (name : String)
  | notCallable (expression : String)
  | blockUndefined (name : String)
  | blockNotIn (name template : String)
  | parentOutsideBlock
  | noParentBlock (name : String)
  | macroNotIn (name template : String)
  | macroUndefined (name template : String)
  | selfOutside
  | includeVariables (type : String)
  | tooDeep (limit : Nat)
  /-- A fault that an extension of the language reports in its own words. -/
  | custom (text : String)
  deriving DecidableEq

def RenderFault.message : RenderFault → String
  | .operands op left right =>
    "Unsupported operand types for " ++ inQuotes op ++ ": " ++ left ++ " and " ++ right
  | .divisionByZero => "Division by zero"
  | .moduloByZero => "Modulo by zero"
  | .notNegatable type => "Cannot negate a value of type " ++ type
  | .notIterable type => "Cannot iterate over a value of type " ++ type
  | .numberExpected filter type =>
    "Filter " ++ inQuotes filter ++ " expects a number but got " ++ type
  | .badDate text reason => "Invalid date " ++ inQuotes text ++ ": " ++ reason
  | .badTimestamp seconds => "Invalid timestamp " ++ toString seconds
  | .notADate type => "Filter 'date' cannot format a value of type " ++ type
  | .rangeArguments => "range() expects at least one argument"
  | .rangeStep => "range() step must be an integer"
  | .rangeStepZero => "range() step must not be zero"
  | .rangeEnds first last => "Cannot build a range from " ++ first ++ " to " ++ last
  | .undefinedVariable e => "Variable " ++ inQuotes e ++ " does not exist"
  | .unknownFilter name => "Unknown filter " ++ inQuotes name
  | .unknownTest name => "Unknown test " ++ inQuotes name
  | .unknownFunction name => "Unknown function " ++ inQuotes name
  | .notCallable e => inQuotes e ++ " is not callable"
  | .blockUndefined name => "Block " ++ inQuotes name ++ " is not defined"
  | .blockNotIn name template =>
    "Block " ++ inQuotes name ++ " not found in " ++ inQuotes template
  | .parentOutsideBlock => "parent() can only be called inside a block"
  | .noParentBlock name => "Block " ++ inQuotes name ++ " has no parent definition"
  | .macroNotIn name template =>
    "Macro " ++ inQuotes name ++ " not found in " ++ inQuotes template
  | .macroUndefined name template =>
    "Macro " ++ inQuotes name ++ " is not defined in " ++ inQuotes template
  | .selfOutside => "'_self' used outside of a template"
  | .includeVariables type => "Variables passed to include must be a map, got " ++ type
  | .tooDeep limit => "Maximum template nesting depth of " ++ toString limit ++ " exceeded"
  | .custom text => text

/-- Why data is not a template value. -/
inductive DataFault where
  | badKey
  | missingKey
  /-- The data itself refuses to be read. -/
  | custom (text : String)
  deriving DecidableEq, Repr

def DataFault.message : DataFault → String
  | .badKey => "Map key must be a string"
  | .missingKey => "Missing key for value"
  | .custom text => text

/-- Any failure of the library. -/
inductive Error where
  /-- The source text has no tokens; line and column count from one. -/
  | scan (fault : ScanFault) (line column : Nat)
  | grammar (fault : GrammarFault)
  /-- A program was compiled but must not run; its listing goes with the error. -/
  | load (name : String) (fault : LoadFault) (listing : String)
  | notFound (name : String)
  | file (path : String) (fault : FileFault)
  | render (fault : RenderFault)
  | data (fault : DataFault)
  /-- A date pattern that means nothing. No template can go on after it. -/
  | datePattern (pattern : String)
  /-- A list that cannot be sorted, since its values have no common order. No template can go
  on after it. -/
  | noOrder
  deriving DecidableEq

/-- The full text of an error. -/
def Error.message : Error → String
  | .scan fault line column =>
    "Tokenization error at line " ++ toString line ++ ", column " ++ toString column ++ ": " ++
      fault.message
  | .grammar fault => "Syntax error: " ++ fault.message
  | .load name fault listing =>
    "Failed to load template program " ++ inQuotes name ++ ": " ++ fault.message ++ "\n" ++ listing
  | .notFound name => "Template not found: " ++ name
  | .file path fault =>
    "Failed to read template " ++ inQuotes path ++ ": " ++ fault.message
  | .render fault => "Render error: " ++ fault.message
  | .data fault => "Value error: " ++ fault.message
  | .datePattern pattern => "Invalid date pattern " ++ inQuotes pattern
  | .noOrder => "The values have no common order"

end Stencil
