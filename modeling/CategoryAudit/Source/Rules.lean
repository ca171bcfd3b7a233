import CategoryAudit.Grammar.Basic

/-!
# The rules of C#

Declarations are described in full, since the checker looks at them. Statements and expressions
are described as far as it takes to tell well-formed text from broken text: operators have no
precedence, and what only a compiler rejects is accepted. Every branch of a conditional directive
has to be well-formed, and a directive may only stand around whole declarations, statements,
expressions, enumeration members or attribute lists.
-/

namespace CategoryAudit.Source

open Grammar Grammar.Rule

private def leftBrace : Rule := text "\x7b"
private def rightBrace : Rule := text "\x7d"
private def attributes : Rule := star "_attribute_list"
private def modifiers : Rule := star "modifier"
private def optionalList (body : Rule) : Rule := opt (commas body ++ opt (text ","))

/-- The forms of a conditional directive around one kind of content. -/
private def conditional (place label : String) (content : Rule) : List Definition :=
  let alternative : Rule :=
    opt (field "alternative" (rule ("preproc_else" ++ place) ||| rule ("preproc_elif" ++ place)))
  [ shownAs label ("preproc_if" ++ place)
      (text "#if" ++ field "condition" "_preproc_expression" ++ token "_newline" ++ content
        ++ alternative ++ text "#endif"),
    shownAs "preproc_else" ("preproc_else" ++ place) (text "#else" ++ content),
    shownAs "preproc_elif" ("preproc_elif" ++ place)
      (text "#elif" ++ field "condition" "_preproc_expression" ++ token "_newline" ++ content
        ++ alternative) ]

private def files : List Definition := [
  hidden "_document" ("compilation_unit" ++ token "_end"),
  shown "compilation_unit" (opt (token "shebang_directive") ++ star "_top_level_item"),
  hidden "_top_level_item" ("_top_level_declaration" ||| "global_statement"),
  hidden "_top_level_declaration" ("extern_alias_directive" ||| "using_directive"
    ||| "global_attribute" ||| "preproc_if_in_top_level" ||| "namespace_declaration"
    ||| "_type_declaration" ||| "file_scoped_namespace_declaration"),
  shown "global_statement" "_statement",
  shown "extern_alias_directive"
    (text "extern" ++ text "alias" ++ field "name" "identifier" ++ text ";"),
  shown "using_directive" (opt (text "global") ++ text "using"
    ++ ((opt (text "unsafe") ++ field "name" "identifier" ++ text "=" ++ "_type")
      ||| (opt (text "static") ++ opt (text "unsafe") ++ "_name")) ++ text ";"),
  shown "global_attribute" (text "[" ++ oneOf ["assembly", "module"] ++ text ":"
    ++ commas "attribute" ++ opt (text ",") ++ text "]"),
  shown "attribute" (field "name" "_name" ++ opt "attribute_argument_list"),
  shown "attribute_argument_list" (text "(" ++ opt (commas "attribute_argument") ++ text ")"),
  shown "attribute_argument" (opt ("identifier" ++ text ":") ++ "_expression"),
  shown "attribute_list" (text "[" ++ opt "attribute_target_specifier" ++ commas "attribute"
    ++ opt (text ",") ++ text "]"),
  hidden "_attribute_list" ("attribute_list" ||| "preproc_if_in_attribute_list"),
  shown "attribute_target_specifier"
    (oneOf ["field", "event", "method", "param", "property", "return", "type"] ++ text ":"),
  shown "namespace_declaration" (text "namespace" ++ field "name" "_name"
    ++ field "body" "declaration_list" ++ token "_optional_semicolon"),
  shown "file_scoped_namespace_declaration"
    (text "namespace" ++ field "name" "_name" ++ text ";"),
  hidden "_type_declaration" ("class_declaration" ||| "struct_declaration" ||| "enum_declaration"
    ||| "interface_declaration" ||| "delegate_declaration" ||| "record_declaration") ]

private def declarations : List Definition := [
  hidden "_type_body"
    ((field "body" "declaration_list" ++ token "_optional_semicolon") ||| text ";"),
  hidden "_type_detail" ("type_parameter_list" ||| "parameter_list" ||| "base_list"
    ||| "type_parameter_constraints_clause"),
  hidden "_class_head" (attributes ++ modifiers ++ text "class" ++ field "name" "identifier"
    ++ star "_type_detail"),
  shown "class_declaration" ("_class_head" ++ "_type_body"),
  hidden "_struct_head" (attributes ++ modifiers ++ opt (text "ref") ++ text "struct"
    ++ field "name" "identifier" ++ star "_type_detail"),
  shown "struct_declaration" ("_struct_head" ++ "_type_body"),
  hidden "_enum_head" (attributes ++ modifiers ++ text "enum" ++ field "name" "identifier"
    ++ opt "base_list"),
  shown "enum_declaration" ("_enum_head" ++ field "body" "enum_member_declaration_list"
    ++ token "_optional_semicolon"),
  shown "enum_member_declaration_list" (leftBrace ++ opt (commas "_enum_member")
    ++ opt (text ",") ++ rightBrace),
  hidden "_enum_member" ("enum_member_declaration" ||| "preproc_if_in_enum_member"),
  shown "enum_member_declaration" (attributes ++ field "name" "identifier"
    ++ opt (text "=" ++ "_expression")),
  hidden "_interface_head" (attributes ++ modifiers ++ text "interface"
    ++ field "name" "identifier" ++ star "_type_detail"),
  shown "interface_declaration" ("_interface_head" ++ "_type_body"),
  shown "delegate_declaration" (attributes ++ modifiers ++ text "delegate" ++ field "type" "_type"
    ++ field "name" "identifier" ++ opt "type_parameter_list"
    ++ field "parameters" "parameter_list" ++ star "type_parameter_constraints_clause"
    ++ text ";"),
  hidden "_record_head" (attributes ++ modifiers ++ text "record"
    ++ opt (oneOf ["class", "struct"]) ++ field "name" "identifier" ++ star "_type_detail"),
  shown "record_declaration" ("_record_head" ++ "_type_body"),
  shown "declaration_list" (leftBrace ++ star "_declaration" ++ rightBrace),
  hidden "_declaration" ("_type_declaration" ||| "field_declaration" ||| "method_declaration"
    ||| "event_declaration" ||| "event_field_declaration" ||| "constructor_declaration"
    ||| "destructor_declaration" ||| "indexer_declaration" ||| "namespace_declaration"
    ||| "operator_declaration" ||| "conversion_operator_declaration" ||| "property_declaration"
    ||| "using_directive" ||| "preproc_if"),
  shown "modifier" (oneOf ["abstract", "async", "const", "extern", "file", "fixed", "internal",
    "new", "override", "partial", "private", "protected", "public", "readonly", "required",
    "sealed", "static", "unsafe", "virtual", "volatile"]),
  shown "type_parameter_list" (text "<" ++ commas "type_parameter" ++ text ">"),
  shown "type_parameter" (attributes ++ opt (oneOf ["in", "out"]) ++ field "name" "identifier"),
  shown "base_list" (text ":" ++ commas ("_type" ++ opt "argument_list")),
  shown "type_parameter_constraints_clause" (text "where" ++ "identifier" ++ text ":"
    ++ commas "type_parameter_constraint"),
  shown "type_parameter_constraint" ((text "class" ++ opt (text "?")) ||| text "struct"
    ||| text "notnull" ||| text "unmanaged" ||| text "default"
    ||| (text "new" ++ text "(" ++ text ")") ||| "_type"),
  shown "parameter_list" (text "(" ++ opt (commas "parameter") ++ text ")"),
  shown "bracketed_parameter_list" (text "[" ++ opt (commas "parameter") ++ text "]"),
  shown "parameter" (attributes ++ star (oneOf ["this", "scoped", "ref", "out", "in", "readonly",
    "params"]) ++ opt (field "type" "_type") ++ field "name" "identifier"
    ++ opt (text "=" ++ "_expression")),
  shown "field_declaration" (attributes ++ modifiers ++ "variable_declaration" ++ text ";"),
  { shown "event_field_declaration"
      (attributes ++ modifiers ++ text "event" ++ "variable_declaration" ++ text ";")
    with weight := 1 },
  shown "event_declaration" (attributes ++ modifiers ++ text "event" ++ field "type" "_type"
    ++ opt "explicit_interface_specifier" ++ field "name" "identifier"
    ++ ("accessor_list" ||| text ";")),
  shown "accessor_list" (leftBrace ++ star "accessor_declaration" ++ rightBrace),
  shown "accessor_declaration" (attributes ++ modifiers
    ++ oneOf ["get", "set", "add", "remove", "init"] ++ "_function_body"),
  hidden "_constructor_head" (attributes ++ modifiers ++ field "name" "identifier"
    ++ field "parameters" "parameter_list" ++ opt "constructor_initializer"),
  shown "constructor_declaration" ("_constructor_head" ++ "_function_body"),
  shown "constructor_initializer" (text ":" ++ oneOf ["base", "this"] ++ "argument_list"),
  shown "destructor_declaration" (attributes ++ modifiers ++ text "~" ++ field "name" "identifier"
    ++ field "parameters" "parameter_list" ++ "_function_body"),
  shown "method_declaration" (attributes ++ modifiers ++ field "returns" "_type"
    ++ opt "explicit_interface_specifier" ++ field "name" "identifier"
    ++ opt "type_parameter_list" ++ field "parameters" "parameter_list"
    ++ star "type_parameter_constraints_clause" ++ "_function_body"),
  shown "explicit_interface_specifier" ("_name" ++ text "."),
  hidden "_overloadable" (oneOf ["!", "~", "++", "--", "true", "false", "+", "-", "*", "/", "%",
    "^", "|", "&", "<<", ">>", ">>>", "==", "!=", ">", "<", ">=", "<="]),
  shown "operator_declaration" (attributes ++ modifiers ++ field "type" "_type"
    ++ opt "explicit_interface_specifier" ++ text "operator" ++ opt (text "checked")
    ++ "_overloadable" ++ field "parameters" "parameter_list" ++ "_function_body"),
  shown "conversion_operator_declaration" (attributes ++ modifiers
    ++ oneOf ["implicit", "explicit"] ++ opt "explicit_interface_specifier" ++ text "operator"
    ++ opt (text "checked") ++ field "type" "_type" ++ field "parameters" "parameter_list"
    ++ "_function_body"),
  shown "indexer_declaration" (attributes ++ modifiers ++ field "type" "_type"
    ++ opt "explicit_interface_specifier" ++ text "this"
    ++ field "parameters" "bracketed_parameter_list"
    ++ ("accessor_list" ||| ("arrow_expression_clause" ++ text ";"))),
  shown "property_declaration" (attributes ++ modifiers ++ field "type" "_type"
    ++ opt "explicit_interface_specifier" ++ field "name" "identifier"
    ++ (("accessor_list" ++ opt (text "=" ++ "_expression" ++ text ";"))
      ||| ("arrow_expression_clause" ++ text ";"))),
  hidden "_function_body" (field "body" "block"
    ||| (field "body" "arrow_expression_clause" ++ text ";") ||| text ";"),
  shown "arrow_expression_clause" (text "=>" ++ "_expression"),
  shown "variable_declaration" (field "type" "_type" ++ commas "variable_declarator"),
  shown "variable_declarator" ((field "name" "identifier" ||| "tuple_pattern")
    ++ opt "bracketed_argument_list" ++ opt (text "=" ++ "_expression")) ]

private def types : List Definition := [
  shown "identifier" (token "_identifier_token" ||| "_reserved_identifier"),
  hidden "_reserved_identifier" (oneOf ["alias", "ascending", "by", "descending", "equals", "file",
    "from", "global", "group", "into", "join", "let", "notnull", "on", "orderby", "scoped",
    "select", "unmanaged", "var", "when", "where", "yield"]),
  hidden "_simple_name" ("identifier" ||| "generic_name"),
  hidden "_name" ("_simple_name" ||| "qualified_name" ||| "alias_qualified_name"),
  shown "generic_name" ("identifier" ++ "type_argument_list"),
  shown "type_argument_list" (text "<" ++ (star (text ",") ||| commas "_type") ++ text ">"),
  shown "qualified_name"
    (field "qualifier" "_name" ++ text "." ++ field "name" "_simple_name"),
  shown "alias_qualified_name"
    (field "alias" "identifier" ++ text "::" ++ field "name" "_simple_name"),
  hidden "_type" ("_name" ||| token "predefined_type" ||| "array_type" ||| "nullable_type"
    ||| "pointer_type" ||| "tuple_type" ||| "ref_type" ||| "function_pointer_type"
    ||| "scoped_type"),
  shown "array_type" ("_type" ++ "array_rank_specifier"),
  shown "array_rank_specifier" (text "[" ++ opt "_expression"
    ++ star (text "," ++ opt "_expression") ++ text "]"),
  shown "nullable_type" ("_type" ++ text "?"),
  shown "pointer_type" ("_type" ++ text "*"),
  shown "tuple_type" (text "(" ++ "tuple_element" ++ text "," ++ commas "tuple_element"
    ++ text ")"),
  shown "tuple_element" ("_type" ++ opt "identifier"),
  shown "ref_type" (text "ref" ++ opt (text "readonly") ++ "_type"),
  shown "scoped_type" (text "scoped" ++ "_type"),
  shown "function_pointer_type" (text "delegate" ++ text "*"
    ++ opt (opt (oneOf ["managed", "unmanaged"])
      ++ opt (text "[" ++ commas "identifier" ++ text "]"))
    ++ text "<" ++ commas (star (oneOf ["ref", "in", "out"]) ++ "_type") ++ text ">"),
  shown "tuple_pattern" (text "(" ++ commas ("identifier" ||| "tuple_pattern") ++ text ")") ]

private def statements : List Definition := [
  hidden "_statement" ("block" ||| "break_statement" ||| "checked_statement"
    ||| "continue_statement" ||| "do_statement" ||| "empty_statement" ||| "expression_statement"
    ||| "fixed_statement" ||| "for_statement" ||| "return_statement" ||| "lock_statement"
    ||| "yield_statement" ||| "switch_statement" ||| "throw_statement" ||| "try_statement"
    ||| "unsafe_statement" ||| "using_statement" ||| "foreach_statement" ||| "goto_statement"
    ||| "labeled_statement" ||| "if_statement" ||| "while_statement"
    ||| "local_declaration_statement" ||| "local_function_statement"
    ||| "preproc_if_in_top_level"),
  shown "block" (leftBrace ++ star "_statement" ++ rightBrace),
  shown "break_statement" (text "break" ++ text ";"),
  shown "checked_statement" (oneOf ["checked", "unchecked"] ++ "block"),
  shown "continue_statement" (text "continue" ++ text ";"),
  shown "do_statement" (text "do" ++ "_statement" ++ text "while" ++ text "(" ++ "_expression"
    ++ text ")" ++ text ";"),
  shown "empty_statement" (text ";"),
  shown "expression_statement" ("_effect" ++ text ";"),
  hidden "_effect" ("assignment_expression" ||| "invocation_expression"
    ||| "postfix_unary_expression" ||| "prefix_unary_expression" ||| "await_expression"
    ||| "object_creation_expression" ||| "implicit_object_creation_expression"
    ||| "parenthesized_expression"),
  shown "fixed_statement" (text "fixed" ++ text "(" ++ "variable_declaration" ++ text ")"
    ++ "_statement"),
  shown "for_statement" (text "for" ++ text "("
    ++ opt ("variable_declaration" ||| commas "_expression") ++ text ";" ++ opt "_expression"
    ++ text ";" ++ opt (commas "_expression") ++ text ")" ++ "_statement"),
  shown "return_statement" (text "return" ++ opt "_expression" ++ text ";"),
  shown "lock_statement" (text "lock" ++ text "(" ++ "_expression" ++ text ")" ++ "_statement"),
  shown "yield_statement" (text "yield" ++ ((text "return" ++ "_expression") ||| text "break")
    ++ text ";"),
  shown "switch_statement" (text "switch"
    ++ ((text "(" ++ "_expression" ++ text ")") ||| "tuple_expression")
    ++ leftBrace ++ star "switch_section" ++ rightBrace),
  shown "switch_section" (many "_switch_label" ++ star "_statement"),
  hidden "_switch_label" ((text "case" ++ "_pattern" ++ opt "when_clause" ++ text ":")
    ||| (text "case" ++ "binary_expression" ++ text ":") ||| (text "default" ++ text ":")),
  shown "when_clause" (text "when" ++ "_expression"),
  shown "throw_statement" (text "throw" ++ opt "_expression" ++ text ";"),
  shown "try_statement" (text "try" ++ "block" ++ star "catch_clause" ++ opt "finally_clause"),
  shown "catch_clause" (text "catch" ++ opt "catch_declaration" ++ opt "catch_filter_clause"
    ++ "block"),
  shown "catch_declaration" (text "(" ++ "_type" ++ opt "identifier" ++ text ")"),
  shown "catch_filter_clause" (text "when" ++ text "(" ++ "_expression" ++ text ")"),
  shown "finally_clause" (text "finally" ++ "block"),
  shown "unsafe_statement" (text "unsafe" ++ "block"),
  shown "using_statement" (opt (text "await") ++ text "using" ++ text "("
    ++ ("variable_declaration" ||| "_expression") ++ text ")" ++ "_statement"),
  shown "foreach_statement" (opt (text "await") ++ text "foreach" ++ text "("
    ++ (("_type" ++ ("identifier" ||| "tuple_pattern")) ||| "_expression") ++ text "in"
    ++ "_expression" ++ text ")" ++ "_statement"),
  shown "goto_statement" (text "goto"
    ++ ("identifier" ||| (text "case" ++ "_expression") ||| text "default") ++ text ";"),
  shown "labeled_statement" ("identifier" ++ text ":" ++ "_statement"),
  shown "if_statement" (text "if" ++ text "(" ++ field "condition" "_expression" ++ text ")"
    ++ field "consequence" "_statement"
    ++ opt (text "else" ++ field "alternative" "_statement")),
  shown "while_statement" (text "while" ++ text "(" ++ "_expression" ++ text ")" ++ "_statement"),
  shown "local_declaration_statement" (opt (text "await") ++ opt (text "using") ++ modifiers
    ++ "variable_declaration" ++ text ";"),
  shown "local_function_statement" (attributes ++ modifiers ++ field "type" "_type"
    ++ field "name" "identifier" ++ opt "type_parameter_list"
    ++ field "parameters" "parameter_list" ++ star "type_parameter_constraints_clause"
    ++ "_function_body") ]

private def expressions : List Definition := [
  hidden "_expression" ("_ternary" ||| "assignment_expression" ||| "lambda_expression"
    ||| "query_expression" ||| "throw_expression" ||| "ref_expression"
    ||| "initializer_expression" ||| "preproc_if_in_expression"),
  shown "assignment_expression" ("_unary" ++ oneOf ["=", "+=", "-=", "*=", "/=", "%=", "&=", "^=",
    "|=", "<<=", ">>=", ">>>=", "??="] ++ "_expression"),
  hidden "_ternary" ("_binary" ||| "conditional_expression"),
  shown "conditional_expression"
    ("_binary" ++ text "?" ++ "_expression" ++ text ":" ++ "_expression"),
  hidden "_binary" ("_unary" ||| "binary_expression" ||| "is_pattern_expression"
    ||| "as_expression" ||| "switch_expression" ||| "with_expression"),
  shown "binary_expression" (("_binary" ++ oneOf ["&&", "||", ">>", ">>>", "<<", "&", "^", "|", "+",
    "-", "*", "/", "%", "<", "<=", "==", "!=", ">=", ">", "??", ".."] ++ "_operand")
    ||| ("_binary" ++ text "..")),
  hidden "_operand" ("_unary" ||| "throw_expression" ||| "lambda_expression"),
  shown "is_pattern_expression" ("_binary" ++ text "is" ++ "_pattern"),
  shown "as_expression" ("_binary" ++ text "as" ++ "_type"),
  shown "switch_expression" ("_binary" ++ text "switch" ++ leftBrace
    ++ optionalList "switch_expression_arm" ++ rightBrace),
  shown "switch_expression_arm" ("_pattern" ++ opt "when_clause" ++ text "=>" ++ "_expression"),
  shown "with_expression" ("_binary" ++ text "with" ++ "initializer_expression"),
  hidden "_unary" ("_primary" ||| "prefix_unary_expression" ||| "await_expression"
    ||| "cast_expression" ||| "range_expression"),
  shown "prefix_unary_expression"
    (oneOf ["++", "--", "+", "-", "!", "~", "&", "*", "^"] ++ "_unary"),
  shown "await_expression" (text "await" ++ "_unary"),
  shown "cast_expression" (text "(" ++ "_type" ++ text ")" ++ "_unary"),
  shown "range_expression" (text ".." ++ opt "_unary"),
  hidden "_primary" (text "this" ||| text "base" ||| "_simple_name" ||| "alias_qualified_name"
    ||| token "predefined_type" ||| "_literal" ||| "parenthesized_expression" ||| "tuple_expression"
    ||| "member_access_expression" ||| "conditional_access_expression" ||| "invocation_expression"
    ||| "element_access_expression" ||| "element_binding_expression"
    ||| "postfix_unary_expression" ||| "object_creation_expression"
    ||| "implicit_object_creation_expression" ||| "array_creation_expression"
    ||| "implicit_array_creation_expression" ||| "anonymous_object_creation_expression"
    ||| "typeof_expression" ||| "sizeof_expression" ||| "default_expression"
    ||| "checked_expression" ||| "stackalloc_expression" ||| "anonymous_method_expression"
    ||| "collection_expression"),
  hidden "_literal" ("null_literal" ||| "boolean_literal" ||| token "character_literal"
    ||| token "real_literal" ||| token "integer_literal" ||| token "string_literal"
    ||| token "verbatim_string_literal" ||| token "raw_string_literal"
    ||| token "interpolated_string_expression"),
  shown "null_literal" (text "null"),
  shown "boolean_literal" (oneOf ["true", "false"]),
  shown "parenthesized_expression" (text "(" ++ "_expression" ++ text ")"),
  shown "tuple_expression" (text "(" ++ "argument" ++ text "," ++ commas "argument" ++ text ")"),
  shown "member_access_expression" ("_primary" ++ oneOf [".", "->"] ++ "_simple_name"),
  shown "conditional_access_expression" ("_primary" ++ text "?"
    ++ ("member_binding_expression" ||| "element_binding_expression")),
  shown "member_binding_expression" (text "." ++ "_simple_name"),
  shown "element_binding_expression" "bracketed_argument_list",
  shown "invocation_expression" ("_primary" ++ "argument_list"),
  shown "element_access_expression" ("_primary" ++ "bracketed_argument_list"),
  shown "postfix_unary_expression" ("_primary" ++ oneOf ["++", "--", "!"]),
  shown "argument_list" (text "(" ++ opt (commas "argument") ++ text ")"),
  shown "bracketed_argument_list" (text "[" ++ commas "argument" ++ opt (text ",") ++ text "]"),
  shown "argument" (opt ("identifier" ++ text ":") ++ opt (oneOf ["ref", "out", "in"])
    ++ ("_expression" ||| "declaration_expression")),
  shown "declaration_expression" ("_type" ++ ("identifier" ||| "tuple_pattern")),
  shown "object_creation_expression" (text "new" ++ "_type"
    ++ (("argument_list" ++ opt "initializer_expression") ||| "initializer_expression")),
  shown "implicit_object_creation_expression"
    (text "new" ++ "argument_list" ++ opt "initializer_expression"),
  shown "array_creation_expression"
    (text "new" ++ "array_type" ++ opt "initializer_expression"),
  shown "implicit_array_creation_expression"
    (text "new" ++ text "[" ++ star (text ",") ++ text "]" ++ "initializer_expression"),
  shown "anonymous_object_creation_expression" (text "new" ++ "initializer_expression"),
  shown "initializer_expression" (leftBrace ++ optionalList "_expression" ++ rightBrace),
  shown "typeof_expression" (text "typeof" ++ text "(" ++ "_type" ++ text ")"),
  shown "sizeof_expression" (text "sizeof" ++ text "(" ++ "_type" ++ text ")"),
  shown "default_expression" (text "default" ++ opt (text "(" ++ "_type" ++ text ")")),
  shown "checked_expression"
    (oneOf ["checked", "unchecked"] ++ text "(" ++ "_expression" ++ text ")"),
  shown "stackalloc_expression" (text "stackalloc"
    ++ (("array_type" ++ opt "initializer_expression")
      ||| (text "[" ++ opt "_expression" ++ text "]" ++ "initializer_expression"))),
  shown "anonymous_method_expression" (star (oneOf ["async", "static"]) ++ text "delegate"
    ++ opt "parameter_list" ++ "block"),
  shown "collection_expression"
    (text "[" ++ optionalList ("_expression" ||| "spread_element") ++ text "]"),
  shown "spread_element" (text ".." ++ "_expression"),
  shown "lambda_expression" (star "attribute_list" ++ star (oneOf ["async", "static"])
    ++ opt (field "type" "_type")
    ++ field "parameters" ("implicit_parameter" ||| "parameter_list")
    ++ text "=>" ++ ("block" ||| "_expression")),
  shown "implicit_parameter" "identifier",
  shown "throw_expression" (text "throw" ++ "_expression"),
  shown "ref_expression" (text "ref" ++ "_expression"),
  shown "query_expression" ("from_clause" ++ "_query_body"),
  shown "from_clause"
    (text "from" ++ opt "_type" ++ "identifier" ++ text "in" ++ "_expression"),
  hidden "_query_body" (star "_query_clause" ++ ("select_clause" ||| "group_clause")
    ++ opt (text "into" ++ "identifier" ++ "_query_body")),
  hidden "_query_clause" ("from_clause" ||| "join_clause" ||| "let_clause" ||| "order_by_clause"
    ||| "where_clause"),
  shown "join_clause" (text "join" ++ opt "_type" ++ "identifier" ++ text "in" ++ "_expression"
    ++ text "on" ++ "_expression" ++ text "equals" ++ "_expression"
    ++ opt (text "into" ++ "identifier")),
  shown "let_clause" (text "let" ++ "identifier" ++ text "=" ++ "_expression"),
  shown "order_by_clause" (text "orderby"
    ++ commas ("_expression" ++ opt (oneOf ["ascending", "descending"]))),
  shown "where_clause" (text "where" ++ "_expression"),
  shown "select_clause" (text "select" ++ "_expression"),
  shown "group_clause" (text "group" ++ "_expression" ++ text "by" ++ "_expression") ]

private def patterns : List Definition := [
  hidden "_pattern" ("_single_pattern" ||| "and_pattern" ||| "or_pattern"),
  shown "and_pattern" ("_pattern" ++ text "and" ++ "_single_pattern"),
  shown "or_pattern" ("_pattern" ++ text "or" ++ "_single_pattern"),
  hidden "_single_pattern" ("constant_pattern" ||| "type_pattern" ||| "declaration_pattern"
    ||| "negated_pattern" ||| "parenthesized_pattern" ||| "relational_pattern"
    ||| "recursive_pattern" ||| "list_pattern"),
  shown "constant_pattern" "_unary",
  shown "type_pattern" "_type",
  shown "declaration_pattern" ("_type" ++ ("identifier" ||| "tuple_pattern")),
  shown "negated_pattern" (text "not" ++ "_single_pattern"),
  shown "parenthesized_pattern" (text "(" ++ "_pattern" ++ text ")"),
  shown "relational_pattern" (oneOf ["<", "<=", ">", ">="] ++ "_unary"),
  shown "recursive_pattern" (opt "_type"
    ++ (("positional_pattern_clause" ++ opt "property_pattern_clause")
      ||| "property_pattern_clause") ++ opt "identifier"),
  shown "positional_pattern_clause"
    (text "(" ++ opt ("subpattern" ++ text "," ++ commas "subpattern") ++ text ")"),
  shown "property_pattern_clause" (leftBrace ++ optionalList "subpattern" ++ rightBrace),
  shown "subpattern" (opt ("_name" ++ text ":") ++ "_pattern"),
  shown "list_pattern" (text "["
    ++ optionalList ("_pattern" ||| (text ".." ++ opt "_pattern")) ++ text "]"
    ++ opt "identifier") ]

private def directives : List Definition := [
  hidden "_preproc_expression" ("_preproc_operand" ||| "preproc_binary_expression"),
  hidden "_preproc_operand" ("identifier" ||| "boolean_literal" ||| token "integer_literal"
    ||| token "character_literal" ||| "preproc_unary_expression"
    ||| "preproc_parenthesized_expression"),
  shownAs "unary_expression" "preproc_unary_expression" (text "!" ++ "_preproc_operand"),
  shownAs "binary_expression" "preproc_binary_expression"
    ("_preproc_expression" ++ oneOf ["||", "&&", "==", "!="] ++ "_preproc_operand"),
  shownAs "parenthesized_expression" "preproc_parenthesized_expression"
    (text "(" ++ "_preproc_expression" ++ text ")") ]
  ++ conditional "" "preproc_if" (star "_declaration")
  ++ conditional "_in_top_level" "preproc_if"
    (star ("_top_level_declaration" ||| "_statement"))
  ++ conditional "_in_expression" "preproc_if" (opt "_expression")
  ++ conditional "_in_enum_member" "preproc_if" (opt "enum_member_declaration")
  ++ conditional "_in_attribute_list" "preproc_if_in_attribute_list" (star "attribute_list")

def definitions : List Definition :=
  files ++ declarations ++ types ++ statements ++ expressions ++ patterns ++ directives

/-- The end of the text is terminal 0; the word class comes next. -/
def grammar : Grammar := Grammar.ofDefinitions ["_end", "_identifier_token"] definitions

end CategoryAudit.Source
