import RepoSurvey.Parsing.Grammar

/-!
The grammar of Python sources: Python 3 together with the statements and literals that only Python 2
has, so that the latter can be told apart from text that is no Python at all.
-/

namespace RepoSurvey.Python

open RepoSurvey.Parsing

namespace Grammar

def r (name : String) : Rule := .symbol name

def t (text : String) : Rule := .literal text

def seq (parts : List Rule) : Rule := .seq parts

def choice (options : List Rule) : Rule := .choice options

def opt (rule : Rule) : Rule := rule.opt

def commaEnd : Rule := (t ",").opt

/-- A rule once or more, commas between. -/
def commas (rule : Rule) : Rule := rule.commas1

def field (label : String) (rule : Rule) : Rule := .field label rule

/-- The ranks of operators and of what competes with them, the loosest first. -/
def levelLambda : Int := -2
def levelTypedParameter : Int := -1
def levelConditional : Int := -1
def levelParenthesized : Int := 1
def levelOr : Int := 10
def levelAnd : Int := 11
def levelNot : Int := 12
def levelCompare : Int := 13
def levelBitOr : Int := 14
def levelBitAnd : Int := 15
def levelXor : Int := 16
def levelShift : Int := 17
def levelPlus : Int := 18
def levelTimes : Int := 19
def levelUnary : Int := 20
def levelPower : Int := 21
def levelCall : Int := 22

def simpleStatements : List (String × Rule) := [
  ("module", (r "_statement").many),
  ("_statement", choice [r "_simple_statements", r "_compound_statement"]),
  ("_simple_statements",
    seq [(r "_simple_statement").sepBy1 (t ";"), opt (t ";"), r "_newline"]),
  ("_simple_statement", choice [
    r "future_import_statement", r "import_statement", r "import_from_statement",
    r "print_statement", r "assert_statement", r "expression_statement", r "return_statement",
    r "delete_statement", r "raise_statement", r "pass_statement", r "break_statement",
    r "continue_statement", r "global_statement", r "nonlocal_statement", r "exec_statement",
    r "type_alias_statement"]),
  ("import_statement", seq [t "import", r "_import_list"]),
  ("import_prefix", .repeated (t ".")),
  ("relative_import", seq [r "import_prefix", opt (r "dotted_name")]),
  ("future_import_statement", seq [t "from", t "__future__", t "import",
    choice [r "_import_list", seq [t "(", r "_import_list", t ")"]]]),
  ("import_from_statement", seq [t "from",
    field "module_name" (choice [r "relative_import", r "dotted_name"]), t "import",
    choice [r "wildcard_import", r "_import_list", seq [t "(", r "_import_list", t ")"]]]),
  ("_import_list", seq [
    commas (field "name" (choice [r "dotted_name", r "aliased_import"])), commaEnd]),
  ("aliased_import", seq [
    field "name" (r "dotted_name"), t "as", field "alias" (r "identifier")]),
  ("wildcard_import", t "*"),
  ("print_statement", choice [
    Rule.rank 1 (seq [t "print", r "chevron",
      (seq [t ",", field "argument" (r "expression")]).many, commaEnd]),
    Rule.rank (-3) (.weighted (-1) (seq [t "print",
      commas (field "argument" (r "expression")), commaEnd]))]),
  ("chevron", seq [t ">>", r "expression"]),
  ("assert_statement", seq [t "assert", commas (r "expression")]),
  ("expression_statement", choice [
    r "expression", seq [commas (r "expression"), commaEnd],
    r "assignment", r "augmented_assignment", r "yield"]),
  ("named_expression", seq [
    field "name" (r "_named_expression_lhs"), t ":=", field "value" (r "expression")]),
  ("_named_expression_lhs", choice [r "identifier", r "keyword_identifier"]),
  ("return_statement", seq [t "return", opt (r "_expressions")]),
  ("delete_statement", seq [t "del", r "_expressions"]),
  ("_expressions", choice [r "expression", r "expression_list"]),
  ("raise_statement", seq [t "raise", opt (r "_expressions"),
    opt (seq [t "from", field "cause" (r "expression")])]),
  ("pass_statement", Rule.rankLeft 0 (t "pass")),
  ("break_statement", Rule.rankLeft 0 (t "break")),
  ("continue_statement", Rule.rankLeft 0 (t "continue"))]

def compoundStatements : List (String × Rule) := [
  ("_compound_statement", choice [
    r "if_statement", r "for_statement", r "while_statement", r "try_statement",
    r "with_statement", r "function_definition", r "class_definition", r "decorated_definition",
    r "match_statement"]),
  ("if_statement", seq [t "if", field "condition" (r "expression"), t ":",
    field "consequence" (r "_suite"),
    (field "alternative" (r "elif_clause")).many,
    opt (field "alternative" (r "else_clause"))]),
  ("elif_clause", seq [t "elif", field "condition" (r "expression"), t ":",
    field "consequence" (r "_suite")]),
  ("else_clause", seq [t "else", t ":", field "body" (r "_suite")]),
  ("match_statement", seq [t "match", commas (field "subject" (r "expression")), commaEnd, t ":",
    field "body" (Rule.named "block" (r "_match_block"))]),
  ("_match_block", choice [
    seq [r "_indent", (field "alternative" (r "case_clause")).many, r "_dedent"],
    r "_newline"]),
  ("case_clause", seq [t "case", commas (r "case_pattern"), commaEnd,
    opt (field "guard" (r "if_clause")), t ":", field "consequence" (r "_suite")]),
  ("for_statement", seq [opt (t "async"), t "for", field "left" (r "_left_hand_side"), t "in",
    field "right" (r "_expressions"), t ":", field "body" (r "_suite"),
    field "alternative" (opt (r "else_clause"))]),
  ("while_statement", seq [t "while", field "condition" (r "expression"), t ":",
    field "body" (r "_suite"), opt (field "alternative" (r "else_clause"))]),
  ("try_statement", seq [t "try", t ":", field "body" (r "_suite"), choice [
    seq [.repeated (r "except_clause"), opt (r "else_clause"), opt (r "finally_clause")],
    seq [.repeated (r "except_group_clause"), opt (r "else_clause"), opt (r "finally_clause")],
    r "finally_clause"]]),
  ("except_clause", seq [t "except",
    opt (seq [r "expression", opt (seq [choice [t "as", t ","], r "expression"])]),
    t ":", r "_suite"]),
  ("except_group_clause", seq [t "except*",
    seq [r "expression", opt (seq [t "as", r "expression"])], t ":", r "_suite"]),
  ("finally_clause", seq [t "finally", t ":", r "_suite"]),
  ("with_statement", seq [opt (t "async"), t "with", r "with_clause", t ":",
    field "body" (r "_suite")]),
  ("with_clause", choice [
    seq [commas (r "with_item"), commaEnd],
    seq [t "(", commas (r "with_item"), commaEnd, t ")"]]),
  ("with_item", .weighted 1 (seq [field "value" (r "expression")])),
  ("function_definition", seq [opt (t "async"), t "def", field "name" (r "identifier"),
    field "type_parameters" (opt (r "type_parameter")), field "parameters" (r "parameters"),
    opt (seq [t "->", field "return_type" (r "type")]), t ":", field "body" (r "_suite")]),
  ("parameters", seq [t "(", opt (r "_parameters"), t ")"]),
  ("lambda_parameters", r "_parameters"),
  ("list_splat", seq [t "*", r "expression"]),
  ("dictionary_splat", seq [t "**", r "expression"]),
  ("global_statement", seq [t "global", commas (r "identifier")]),
  ("nonlocal_statement", seq [t "nonlocal", commas (r "identifier")]),
  ("exec_statement", seq [t "exec", field "code" (choice [r "string", r "identifier"]),
    opt (seq [t "in", commas (r "expression")])]),
  ("type_alias_statement", .weighted 1 (seq [t "type", field "left" (r "type"), t "=",
    field "right" (r "type")])),
  ("class_definition", seq [t "class", field "name" (r "identifier"),
    field "type_parameters" (opt (r "type_parameter")),
    field "superclasses" (opt (r "argument_list")), t ":", field "body" (r "_suite")]),
  ("type_parameter", seq [t "[", commas (r "type"), commaEnd, t "]"]),
  ("parenthesized_list_splat", Rule.rank levelParenthesized (seq [t "(",
    choice [Rule.named "parenthesized_expression" (r "parenthesized_list_splat"),
      r "list_splat"], t ")"])),
  ("argument_list", seq [t "(",
    opt (commas (choice [r "expression", r "list_splat", r "dictionary_splat",
      Rule.named "parenthesized_expression" (r "parenthesized_list_splat"),
      r "keyword_argument"])), commaEnd, t ")"]),
  ("decorated_definition", seq [.repeated (r "decorator"),
    field "definition" (choice [r "class_definition", r "function_definition"])]),
  ("decorator", seq [t "@", r "expression", r "_newline"]),
  ("_suite", choice [
    Rule.named "block" (r "_simple_statements"),
    seq [r "_indent", r "block"],
    Rule.named "block" (r "_newline")]),
  ("block", seq [(r "_statement").many, r "_dedent"]),
  ("expression_list", Rule.rankRight 0 (seq [r "expression", choice [t ",",
    seq [.repeated (seq [t ",", r "expression"]), commaEnd]]])),
  ("dotted_name", Rule.rank 1 ((r "identifier").sepBy1 (t ".")))]

/-- Patterns of `case` clauses. -/
def casePatterns : List (String × Rule) := [
  ("case_pattern", Rule.rank 1 (choice [
    Rule.named "as_pattern" (r "_as_pattern"), r "keyword_pattern", r "_simple_pattern"])),
  ("_simple_pattern", Rule.rank 1 (choice [
    r "class_pattern", r "splat_pattern", r "union_pattern",
    Rule.named "list_pattern" (r "_list_pattern"),
    Rule.named "tuple_pattern" (r "_tuple_pattern"),
    r "dict_pattern", r "string", r "concatenated_string", r "true", r "false", r "none",
    seq [opt (t "-"), choice [r "integer", r "float"]],
    r "complex_pattern", r "dotted_name", t "_"])),
  ("_as_pattern", seq [r "case_pattern", t "as", r "identifier"]),
  ("union_pattern", Rule.rankRight 0 (seq [r "_simple_pattern",
    .repeated (Rule.rankLeft 0 (seq [t "|", r "_simple_pattern"]))])),
  ("_list_pattern", seq [t "[", opt (seq [commas (r "case_pattern"), commaEnd]), t "]"]),
  ("_tuple_pattern", seq [t "(", opt (seq [commas (r "case_pattern"), commaEnd]), t ")"]),
  ("dict_pattern", seq [t "\x7b",
    opt (seq [commas (choice [r "_key_value_pattern", r "splat_pattern"]), commaEnd]),
    t "\x7d"]),
  ("_key_value_pattern", seq [
    field "key" (r "_simple_pattern"), t ":", field "value" (r "case_pattern")]),
  ("keyword_pattern", seq [r "identifier", t "=", r "_simple_pattern"]),
  ("splat_pattern", Rule.rank 1 (seq [
    choice [t "*", t "**"], choice [r "identifier", t "_"]])),
  ("class_pattern", seq [r "dotted_name", t "(",
    opt (seq [commas (r "case_pattern"), commaEnd]), t ")"]),
  ("complex_pattern", Rule.rank 1 (seq [opt (t "-"), choice [r "integer", r "float"],
    choice [t "+", t "-"], choice [r "integer", r "float"]]))]

def patterns : List (String × Rule) := [
  ("_parameters", seq [commas (r "parameter"), commaEnd]),
  ("_patterns", seq [commas (r "pattern"), commaEnd]),
  ("parameter", choice [
    r "identifier", r "typed_parameter", r "default_parameter", r "typed_default_parameter",
    r "list_splat_pattern", r "tuple_pattern", r "keyword_separator", r "positional_separator",
    r "dictionary_splat_pattern"]),
  ("pattern", choice [
    r "identifier", r "keyword_identifier", r "subscript", r "attribute",
    r "list_splat_pattern", r "tuple_pattern", r "list_pattern"]),
  ("tuple_pattern", seq [t "(", opt (r "_patterns"), t ")"]),
  ("list_pattern", seq [t "[", opt (r "_patterns"), t "]"]),
  ("default_parameter", seq [
    field "name" (choice [r "identifier", r "tuple_pattern"]), t "=",
    field "value" (r "expression")]),
  ("typed_default_parameter", Rule.rank levelTypedParameter (seq [
    field "name" (r "identifier"), t ":", field "type" (r "type"), t "=",
    field "value" (r "expression")])),
  ("list_splat_pattern", seq [t "*",
    choice [r "identifier", r "keyword_identifier", r "subscript", r "attribute"]]),
  ("dictionary_splat_pattern", seq [t "**",
    choice [r "identifier", r "keyword_identifier", r "subscript", r "attribute"]]),
  ("as_pattern", Rule.rankLeft 0 (seq [r "expression", t "as",
    field "alias" (Rule.named "as_pattern_target" (r "expression"))]))]

def binaryOperators : List Rule :=
  let operator (rank : Rule → Rule) (text : String) : Rule :=
    rank (seq [field "left" (r "primary_expression"), field "operator" (t text),
      field "right" (r "primary_expression")])
  [operator (Rule.rankLeft levelPlus) "+",
   operator (Rule.rankLeft levelPlus) "-",
   operator (Rule.rankLeft levelTimes) "*",
   operator (Rule.rankLeft levelTimes) "@",
   operator (Rule.rankLeft levelTimes) "/",
   operator (Rule.rankLeft levelTimes) "%",
   operator (Rule.rankLeft levelTimes) "//",
   operator (Rule.rankRight levelPower) "**",
   operator (Rule.rankLeft levelBitOr) "|",
   operator (Rule.rankLeft levelBitAnd) "&",
   operator (Rule.rankLeft levelXor) "^",
   operator (Rule.rankLeft levelShift) "<<",
   operator (Rule.rankLeft levelShift) ">>"]

def expressions : List (String × Rule) := [
  ("_expression_within_for_in_clause", choice [
    r "expression", Rule.named "lambda" (r "lambda_within_for_in_clause")]),
  ("expression", choice [
    r "comparison_operator", r "not_operator", r "boolean_operator", r "lambda",
    r "primary_expression", r "conditional_expression", r "named_expression", r "as_pattern"]),
  ("primary_expression", choice [
    r "await", r "binary_operator", r "identifier", r "keyword_identifier", r "string",
    r "concatenated_string", r "integer", r "float", r "true", r "false", r "none",
    r "unary_operator", r "attribute", r "subscript", r "call", r "list",
    r "list_comprehension", r "dictionary", r "dictionary_comprehension", r "set",
    r "set_comprehension", r "tuple", r "parenthesized_expression", r "generator_expression",
    r "ellipsis", Rule.named "list_splat" (r "list_splat_pattern")]),
  ("not_operator", Rule.rank levelNot (seq [t "not", field "argument" (r "expression")])),
  ("boolean_operator", choice [
    Rule.rankLeft levelAnd (seq [field "left" (r "expression"), field "operator" (t "and"),
      field "right" (r "expression")]),
    Rule.rankLeft levelOr (seq [field "left" (r "expression"), field "operator" (t "or"),
      field "right" (r "expression")])]),
  ("binary_operator", choice binaryOperators),
  ("unary_operator", Rule.rank levelUnary (seq [
    field "operator" (choice [t "+", t "-", t "~"]),
    field "argument" (r "primary_expression")])),
  ("_not_in", seq [t "not", t "in"]),
  ("_is_not", seq [t "is", t "not"]),
  ("comparison_operator", Rule.rankLeft levelCompare (seq [r "primary_expression",
    .repeated (seq [field "operators" (choice [
      t "<", t "<=", t "==", t "!=", t ">=", t ">", t "<>", t "in",
      Rule.anonymous "not in" (r "_not_in"), t "is",
      Rule.anonymous "is not" (r "_is_not")]), r "primary_expression"])])),
  ("lambda", Rule.rank levelLambda (seq [t "lambda",
    field "parameters" (opt (r "lambda_parameters")), t ":",
    field "body" (r "expression")])),
  ("lambda_within_for_in_clause", seq [t "lambda",
    field "parameters" (opt (r "lambda_parameters")), t ":",
    field "body" (r "_expression_within_for_in_clause")]),
  ("assignment", seq [field "left" (r "_left_hand_side"), choice [
    seq [t "=", field "right" (r "_right_hand_side")],
    seq [t ":", field "type" (r "type")],
    seq [t ":", field "type" (r "type"), t "=", field "right" (r "_right_hand_side")]]]),
  ("augmented_assignment", seq [field "left" (r "_left_hand_side"),
    field "operator" (choice [t "+=", t "-=", t "*=", t "/=", t "@=", t "//=", t "%=", t "**=",
      t ">>=", t "<<=", t "&=", t "^=", t "|="]),
    field "right" (r "_right_hand_side")]),
  ("_left_hand_side", choice [r "pattern", r "pattern_list"]),
  ("pattern_list", seq [r "pattern", choice [t ",",
    seq [.repeated (seq [t ",", r "pattern"]), commaEnd]]]),
  ("_right_hand_side", choice [
    r "expression", r "expression_list", r "assignment", r "augmented_assignment",
    r "pattern_list", r "yield"]),
  ("yield", Rule.rankRight 0 (seq [t "yield", choice [
    seq [t "from", r "expression"], opt (r "_expressions")]])),
  ("attribute", Rule.rank levelCall (seq [
    field "object" (r "primary_expression"), t ".", field "attribute" (r "identifier")])),
  ("subscript", Rule.rank levelCall (seq [field "value" (r "primary_expression"), t "[",
    commas (field "subscript" (choice [r "expression", r "slice"])), commaEnd, t "]"])),
  ("slice", seq [opt (r "expression"), t ":", opt (r "expression"),
    opt (seq [t ":", opt (r "expression")])]),
  ("call", Rule.rank levelCall (seq [field "function" (r "primary_expression"),
    field "arguments" (choice [r "generator_expression", r "argument_list"])])),
  ("typed_parameter", Rule.rank levelTypedParameter (seq [
    choice [r "identifier", r "list_splat_pattern", r "dictionary_splat_pattern"], t ":",
    field "type" (r "type")])),
  ("type", choice [Rule.rank 1 (r "expression"), r "splat_type", r "generic_type",
    r "union_type", r "constrained_type", r "member_type"]),
  ("splat_type", Rule.rank 1 (seq [choice [t "*", t "**"], r "identifier"])),
  ("generic_type", Rule.rank 1 (seq [
    choice [r "identifier", Rule.named "identifier" (t "type")], r "type_parameter"])),
  ("union_type", Rule.rankLeft 0 (seq [r "type", t "|", r "type"])),
  ("constrained_type", Rule.rankRight 0 (seq [r "type", t ":", r "type"])),
  ("member_type", seq [r "type", t ".", r "identifier"]),
  ("keyword_argument", seq [
    field "name" (choice [r "identifier", r "keyword_identifier"]), t "=",
    field "value" (r "expression")])]

/-- Displays, comprehensions, strings and names. -/
def atoms : List (String × Rule) := [
  ("list", seq [t "[", opt (r "_collection_elements"), t "]"]),
  ("set", seq [t "\x7b", r "_collection_elements", t "\x7d"]),
  ("tuple", seq [t "(", opt (r "_collection_elements"), t ")"]),
  ("dictionary", seq [t "\x7b", opt (commas (choice [r "pair", r "dictionary_splat"])),
    commaEnd, t "\x7d"]),
  ("pair", seq [field "key" (r "expression"), t ":", field "value" (r "expression")]),
  ("list_comprehension", seq [t "[", field "body" (r "expression"),
    r "_comprehension_clauses", t "]"]),
  ("dictionary_comprehension", seq [t "\x7b", field "body" (r "pair"),
    r "_comprehension_clauses", t "\x7d"]),
  ("set_comprehension", seq [t "\x7b", field "body" (r "expression"),
    r "_comprehension_clauses", t "\x7d"]),
  ("generator_expression", seq [t "(", field "body" (r "expression"),
    r "_comprehension_clauses", t ")"]),
  ("_comprehension_clauses", seq [r "for_in_clause",
    (choice [r "for_in_clause", r "if_clause"]).many]),
  ("parenthesized_expression", Rule.rank levelParenthesized (seq [t "(",
    choice [r "expression", r "yield"], t ")"])),
  ("_collection_elements", seq [commas (choice [
    r "expression", r "yield", r "list_splat", r "parenthesized_list_splat"]), commaEnd]),
  ("for_in_clause", Rule.rankLeft 0 (seq [opt (t "async"), t "for",
    field "left" (r "_left_hand_side"), t "in",
    field "right" (commas (r "_expression_within_for_in_clause")), commaEnd])),
  ("if_clause", seq [t "if", r "expression"]),
  ("conditional_expression", Rule.rankRight levelConditional (seq [
    r "expression", t "if", r "expression", t "else", r "expression"])),
  ("concatenated_string", seq [r "string", .repeated (r "string")]),
  ("string", seq [r "string_start", (choice [r "interpolation", r "string_content"]).many,
    r "string_end"]),
  ("string_content", Rule.rankRight 0 (.repeated (choice [
    r "escape_interpolation", r "escape_sequence", r "_not_escape_sequence",
    r "_string_content"]))),
  ("interpolation", seq [t "\x7b", field "expression" (r "_f_expression"), opt (t "="),
    opt (field "type_conversion" (r "type_conversion")),
    opt (field "format_specifier" (r "format_specifier")), t "\x7d"]),
  ("_f_expression", choice [
    r "expression", r "expression_list", r "pattern_list", r "yield"]),
  ("format_specifier", seq [t ":", (choice [
    r "format text", Rule.named "format_expression" (r "interpolation")]).many]),
  ("keyword_identifier", choice [
    Rule.rank (-3) (Rule.named "identifier"
      (choice [t "print", t "exec", t "async", t "await"])),
    Rule.named "identifier" (choice [t "type", t "match"])]),
  ("await", Rule.rank levelUnary (seq [t "await", r "primary_expression"])),
  ("positional_separator", t "/"),
  ("keyword_separator", t "*")]

end Grammar

def grammar : Parsing.Grammar where
  rules := Grammar.simpleStatements ++ Grammar.compoundStatements ++ Grammar.casePatterns ++
    Grammar.patterns ++ Grammar.expressions ++ Grammar.atoms
  inlined := ["_simple_statement", "_compound_statement", "_suite", "_expressions",
    "_left_hand_side", "keyword_identifier"]
  categories := ["expression", "primary_expression", "pattern", "parameter"]
  layout := ["_newline", "_indent", "_dedent", "string_start", "_string_content",
    "escape_interpolation", "string_end"]
  extras := ["comment", "line_continuation"]
  spellings := [("true", "True"), ("false", "False"), ("none", "None"), ("ellipsis", "...")]
  word := "identifier"

def table : Parsing.Table := grammar.compile

end RepoSurvey.Python
