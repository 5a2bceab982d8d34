/-
**Kinds of concrete nodes.**

The constructs of Ruby that the reader tells apart, each with the name by which it is reported.
Two classes of kinds decide which identifiers bind a local variable.
-/

namespace RecipeLint.Ruby

/-- A construct of Ruby, or a part of one. -/
inductive Kind where
  | program | uninterpreted | emptyStatement | comment | identifier | constant | call
  | argumentList | block | doBlock | blockParameters | blockBody | bodyStatement | pair
  | hashKeySymbol | splatArgument | hashSplatArgument | blockArgument | forwardArgument
  | arrayLiteral | hashLiteral | stringArray | symbolArray | bareString | bareSymbol
  | elementReference | scopeResolution | stringLiteral | stringContent | escapeSequence
  | interpolation | chainedString | subshell | regexLiteral | delimitedSymbol | simpleSymbol
  | characterLiteral | integerNumber | floatNumber | rationalNumber | complexNumber | nilLiteral
  | trueLiteral | falseLiteral | selfReference | superCall | instanceVariable | classVariable
  | globalVariable | operatorName | rangeValue | binary | unary | conditional
  | parenthesizedStatements | assignment | operatorAssignment | leftAssignmentList
  | restAssignment | destructuredLeftAssignment | rightAssignmentList | ifModifier
  | unlessModifier | whileModifier | untilModifier | rescueModifier | ifBranch | unlessBranch
  | elsifBranch | elseBranch | thenBranch | whileLoop | untilLoop | forLoop | inValue | loopBody
  | caseBranch | whenBranch | casePattern | beginBody | rescueClause | exceptions
  | exceptionVariable | ensureClause | methodDefinition | singletonMethod | setter
  | methodParameters | optionalParameter | splatParameter | hashSplatParameter | hashSplatNil
  | blockParameter | keywordParameter | destructuredParameter | forwardParameter
  | classDefinition | superclass | moduleDefinition | singletonClass | lambdaLiteral
  | lambdaParameters | returnJump | breakJump | nextJump | redoJump | retryJump | yieldJump
  | aliasName | undefName | beginBlock | endBlock | heredocBeginning | heredocBody
  | heredocContent | heredocEnd | matchPattern | testPattern | caseMatch | inClause | ifGuard
  | unlessGuard | arrayPattern | findPattern | hashPattern | keywordPattern | asPattern
  | alternativePattern | parenthesizedPattern | variableReferencePattern
  | expressionReferencePattern | currentLine | currentFile | currentEncoding
  deriving DecidableEq, Repr, Inhabited

namespace Kind

/-- The name by which a construct is reported. -/
def name : Kind → String
  | .program => "program"
  | .uninterpreted => "uninterpreted"
  | .emptyStatement => "empty_statement"
  | .comment => "comment"
  | .identifier => "identifier"
  | .constant => "constant"
  | .call => "call"
  | .argumentList => "argument_list"
  | .block => "block"
  | .doBlock => "do_block"
  | .blockParameters => "block_parameters"
  | .blockBody => "block_body"
  | .bodyStatement => "body_statement"
  | .pair => "pair"
  | .hashKeySymbol => "hash_key_symbol"
  | .splatArgument => "splat_argument"
  | .hashSplatArgument => "hash_splat_argument"
  | .blockArgument => "block_argument"
  | .forwardArgument => "forward_argument"
  | .arrayLiteral => "array"
  | .hashLiteral => "hash"
  | .stringArray => "string_array"
  | .symbolArray => "symbol_array"
  | .bareString => "bare_string"
  | .bareSymbol => "bare_symbol"
  | .elementReference => "element_reference"
  | .scopeResolution => "scope_resolution"
  | .stringLiteral => "string"
  | .stringContent => "string_content"
  | .escapeSequence => "escape_sequence"
  | .interpolation => "interpolation"
  | .chainedString => "chained_string"
  | .subshell => "subshell"
  | .regexLiteral => "regex"
  | .delimitedSymbol => "delimited_symbol"
  | .simpleSymbol => "simple_symbol"
  | .characterLiteral => "character"
  | .integerNumber => "integer"
  | .floatNumber => "float"
  | .rationalNumber => "rational"
  | .complexNumber => "complex"
  | .nilLiteral => "nil"
  | .trueLiteral => "true"
  | .falseLiteral => "false"
  | .selfReference => "self"
  | .superCall => "super"
  | .instanceVariable => "instance_variable"
  | .classVariable => "class_variable"
  | .globalVariable => "global_variable"
  | .operatorName => "operator"
  | .rangeValue => "range"
  | .binary => "binary"
  | .unary => "unary"
  | .conditional => "conditional"
  | .parenthesizedStatements => "parenthesized_statements"
  | .assignment => "assignment"
  | .operatorAssignment => "operator_assignment"
  | .leftAssignmentList => "left_assignment_list"
  | .restAssignment => "rest_assignment"
  | .destructuredLeftAssignment => "destructured_left_assignment"
  | .rightAssignmentList => "right_assignment_list"
  | .ifModifier => "if_modifier"
  | .unlessModifier => "unless_modifier"
  | .whileModifier => "while_modifier"
  | .untilModifier => "until_modifier"
  | .rescueModifier => "rescue_modifier"
  | .ifBranch => "if"
  | .unlessBranch => "unless"
  | .elsifBranch => "elsif"
  | .elseBranch => "else"
  | .thenBranch => "then"
  | .whileLoop => "while"
  | .untilLoop => "until"
  | .forLoop => "for"
  | .inValue => "in"
  | .loopBody => "do"
  | .caseBranch => "case"
  | .whenBranch => "when"
  | .casePattern => "pattern"
  | .beginBody => "begin"
  | .rescueClause => "rescue"
  | .exceptions => "exceptions"
  | .exceptionVariable => "exception_variable"
  | .ensureClause => "ensure"
  | .methodDefinition => "method"
  | .singletonMethod => "singleton_method"
  | .setter => "setter"
  | .methodParameters => "method_parameters"
  | .optionalParameter => "optional_parameter"
  | .splatParameter => "splat_parameter"
  | .hashSplatParameter => "hash_splat_parameter"
  | .hashSplatNil => "hash_splat_nil"
  | .blockParameter => "block_parameter"
  | .keywordParameter => "keyword_parameter"
  | .destructuredParameter => "destructured_parameter"
  | .forwardParameter => "forward_parameter"
  | .classDefinition => "class"
  | .superclass => "superclass"
  | .moduleDefinition => "module"
  | .singletonClass => "singleton_class"
  | .lambdaLiteral => "lambda"
  | .lambdaParameters => "lambda_parameters"
  | .returnJump => "return"
  | .breakJump => "break"
  | .nextJump => "next"
  | .redoJump => "redo"
  | .retryJump => "retry"
  | .yieldJump => "yield"
  | .aliasName => "alias"
  | .undefName => "undef"
  | .beginBlock => "begin_block"
  | .endBlock => "end_block"
  | .heredocBeginning => "heredoc_beginning"
  | .heredocBody => "heredoc_body"
  | .heredocContent => "heredoc_content"
  | .heredocEnd => "heredoc_end"
  | .matchPattern => "match_pattern"
  | .testPattern => "test_pattern"
  | .caseMatch => "case_match"
  | .inClause => "in_clause"
  | .ifGuard => "if_guard"
  | .unlessGuard => "unless_guard"
  | .arrayPattern => "array_pattern"
  | .findPattern => "find_pattern"
  | .hashPattern => "hash_pattern"
  | .keywordPattern => "keyword_pattern"
  | .asPattern => "as_pattern"
  | .alternativePattern => "alternative_pattern"
  | .parenthesizedPattern => "parenthesized_pattern"
  | .variableReferencePattern => "variable_reference_pattern"
  | .expressionReferencePattern => "expression_reference_pattern"
  | .currentLine => "line"
  | .currentFile => "file"
  | .currentEncoding => "encoding"

/-- Constructs in which every identifier that is a direct part binds a local variable. -/
def bindsParts : Kind → Bool
  | .leftAssignmentList | .destructuredLeftAssignment | .destructuredParameter | .restAssignment
  | .exceptionVariable | .methodParameters | .blockParameters | .lambdaParameters => true
  | _ => false

/-- Parameters that bind the identifier they are named by. -/
def bindsName : Kind → Bool
  | .optionalParameter | .splatParameter | .hashSplatParameter | .blockParameter
  | .keywordParameter | .forwardParameter => true
  | _ => false

/-- Constructs whose parts stand in a block as if they were written there directly. -/
def wrapsBody : Kind → Bool
  | .bodyStatement | .blockBody => true
  | _ => false

end Kind

end RecipeLint.Ruby
