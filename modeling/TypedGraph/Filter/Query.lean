import TypedGraph.Filter.Reader
import TypedGraph.Query.Clause

/-!
# Filter/Query — the query of a filter

Each condition of a filter is written as clauses of a query, and the clauses as query documents all
of which have to hold.  Suffixes become patterns that match at the end of an identifier.
-/

namespace TypedGraph

namespace Condition

/-- A pattern for the texts that end with a suffix. -/
def suffixPattern (suffix : String) : String := Pattern.escape suffix ++ "$"

/-- A pattern for the texts that end with one of several suffixes. -/
def anySuffixPattern (suffixes : List String) : String :=
  "(?:" ++ "|".intercalate (suffixes.map Pattern.escape) ++ ")$"

/-- The clauses of a condition on suffixes.  No identifier ends with one of no suffixes. -/
def suffixClauses (path : FieldPath) (suffixes : List String) (negated : Bool) : List Clause :=
  if negated then
    suffixes.map fun s =>
      .ask path .not (.single QueryOperator.regex.name (.str (suffixPattern s)))
  else if suffixes.isEmpty then [.ask path .isIn (.arr [])]
  else [.ask path .regex (.str (anySuffixPattern suffixes))]

mutual

/-- **The clauses of a condition.** -/
def clauses : Condition → Except Error (List Clause)
  | .present path expected => .ok [.ask path (if expected then .ne else .eq) .null]
  | .isList path expected =>
    .ok [if expected then .ask path .type (.str "array")
      else .ask path .not (.single QueryOperator.type.name (.str "array"))]
  | .equals path operand => .ok [.ask path (if operand.isArray then .isIn else .eq) operand]
  | .differs path operand => .ok [.ask path (if operand.isArray then .notIn else .ne) operand]
  | .compares path comparison operand => .ok [.ask path (.compare comparison) operand]
  | .matching path pattern => .ok [.ask path .regex (.str pattern)]
  | .endsWith path suffixes negated => .ok (suffixClauses path suffixes negated)
  | .length path n => .ok [.ask path .size (.nat n)]
  | .isEmpty path expected =>
    .ok [if expected then .ask path .size (.nat 0) else .nonEmptyList path]
  | .elements path quantifier kind inner =>
    allClauses inner >>= Clause.quantified path quantifier kind
  | .fault e => .error e
termination_by structural c => c

/-- The clauses of several conditions. -/
def allClauses : List Condition → Except Error (List Clause)
  | [] => .ok []
  | c :: cs => do
    let first ← clauses c
    let rest ← allClauses cs
    return first ++ rest
termination_by structural cs => cs

end

end Condition

namespace Filter

/-- **The query documents of a filter** on the object at a path. -/
def query (ctx : Context) (t : TypeInfo) (path : FieldPath) (filter : Value) :
    Except Error (List (Record Value)) := do
  let clauses ← Condition.allClauses (read ctx t path filter)
  clauses.mapM Clause.toDocument

/-- The stage of a pipeline that keeps what satisfies all query documents; none where there are
no query documents. -/
def matchStage? (queries : List (Record Value)) : Option (Record Value) :=
  if queries.isEmpty then none else some [("$match", .obj (Clause.conjunction queries))]

end Filter

end TypedGraph
