import WorkerPool.Log.Record

/-!
# Log filters

A filter is a list of directives between commas. A directive is a level, a target, or a target and a
level after an equals sign; a target stands for every path that begins with it. Of the directives
that fit a record the one with the longest target decides, of equal ones the last. A directive with
a span in square brackets concerns records inside of that span only.
-/

namespace WorkerPool.Log

/-- What a filter lets through: everything up to a level, or nothing. -/
abbrev Limit := Option Level

/-- A rule of a filter. -/
structure Directive where
  /-- The beginning of the targets that the rule is for; without one it is for all. -/
  target : Option String
  limit : Limit
  /-- The rule is for records inside of a span. -/
  spanned : Bool := false
  deriving DecidableEq, Repr

/-- Rules, in the order in which they were given. -/
abbrev Filter := List Directive

/-- Reads a limit: the name of a level in letters of either case, its number, `off` or 0. -/
def readLimit? (text : String) : Option Limit :=
  match text.toLower with
  | "off" | "0" => some none
  | "error" | "1" => some (some .error)
  | "warn" | "2" => some (some .warn)
  | "info" | "3" => some (some .info)
  | "debug" | "4" => some (some .debug)
  | "trace" | "5" => some (some .trace)
  | _ => none

/-- Reads the limit after an equals sign, where nothing means everything. -/
def readLimitAfter? (text : String) : Option Limit :=
  if text.isEmpty then some (some .trace) else readLimit? text

/-- Text without blanks at either end. -/
def trimmed (text : List Char) : List Char :=
  ((text.dropWhile Char.isWhitespace).reverse.dropWhile Char.isWhitespace).reverse

/-- Reads what follows the span of a directive. -/
def readSpanned? (target : Option String) (rest : List Char) : Option Directive :=
  match rest.dropWhile (· != ']') with
  | [_] => some { target, limit := some .trace, spanned := true }
  | _ :: '=' :: level =>
    (readLimitAfter? (String.ofList level)).map fun limit => { target, limit, spanned := true }
  | _ => none

/-- Reads one directive. -/
def Directive.read? (text : String) : Option Directive :=
  let text := trimmed text.toList
  match text with
  | [] => none
  | '[' :: rest => readSpanned? none rest
  | first :: _ =>
    if !(first.isAlphanum || first.toNat ≥ 0x80 || first ∈ ['-', ':', '_']) then none
    else
      let word := String.ofList text
      match text.span fun c => c != '=' && c != '[' with
      | (target, '=' :: level) =>
        (readLimitAfter? (String.ofList level)).map fun limit =>
          { target := some (String.ofList target), limit }
      | (target, '[' :: rest) => readSpanned? (some (String.ofList target)) rest
      | _ =>
        match readLimit? word with
        | some limit => some { target := none, limit }
        | none => some { target := some word, limit := some .trace }

/-- Reads a filter; an empty one lets errors through. -/
def Filter.read? (text : String) : Option Filter :=
  match (text.splitOn ",").filter (!·.isEmpty) with
  | [] => some [{ target := none, limit := some .error }]
  | parts => parts.mapM Directive.read?

namespace Directive

/-- How specific a rule is. -/
def weight (d : Directive) : Nat :=
  match d.target with
  | none => 0
  | some target => target.utf8ByteSize + 1

/-- The rule is for records of this target. -/
def fits (d : Directive) (target : String) : Bool :=
  !d.spanned && d.target.all fun start => start.toList.isPrefixOf target.toList

end Directive

namespace Filter

/-- The rule that decides on a target. -/
def deciding? (filter : Filter) (target : String) : Option Directive :=
  (filter.filter (·.fits target)).foldl (fun best d =>
    match best with
    | some b => if b.weight ≤ d.weight then some d else some b
    | none => some d) none

/-- A record passes the filter. -/
def passes (filter : Filter) (r : Record) : Bool :=
  match filter.deciding? r.target with
  | some d => d.limit.any r.level.within
  | none => false

/-- The filter of a text, or the one that lets information through where the text is missing or
cannot be read. -/
def ofText (text : Option String) : Filter :=
  (text.bind read?).getD [{ target := none, limit := some .info }]

end Filter

end WorkerPool.Log
