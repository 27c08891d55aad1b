import HeuristicEvolution.Candidate.Basic
import HeuristicEvolution.Failure
import HeuristicEvolution.Json.Parser
import HeuristicEvolution.Task.Argument
import HeuristicEvolution.Text.Lines
import HeuristicEvolution.World.Action

/-!
# Scores of the cache simulator

The simulator replays a trace for several cache sizes and prints one row of figures for each. The
score is one less the miss ratio at the size that counts. Sizes are absolute, and then a row
carries its size; or they are percentages of the trace, and then rows and sizes are matched by
rank, because rows carry absolute sizes only.

## Main definitions

* `CacheArguments`, `CacheArguments.check`: what is asked of the simulator.
* `CacheArguments.outcome`: what its output comes to.
-/

namespace HeuristicEvolution

/-- What is asked of the cache simulator. -/
structure CacheArguments where
  trace : String
  sizes : List Float
  /-- The size whose miss ratio counts. -/
  scoredSize : Float
  percent : Bool
  /-- Bytes are counted and not requests. -/
  byBytes : Bool
  buildSeconds : Nat
  experimentSeconds : Nat
  deriving Inhabited

namespace CacheArguments

/-- What is asked unless the arguments say something else. -/
def standard : CacheArguments :=
  ⟨"CloudPhysics/w106.oracleGeneral.bin.zst", [128.0], 128.0, false, true, 180, 3600⟩

/-- The fields of the arguments. -/
def arguments : List (Argument CacheArguments) :=
  [.of "trace" Argument.text fun s a => { a with trace := s },
   .of "cache_sizes" Argument.numbers fun xs a => { a with sizes := xs },
   .of "eval_cache_size" Argument.number fun x a => { a with scoredSize := x },
   .of "percent" Argument.truth fun b a => { a with percent := b },
   .of "byte" Argument.truth fun b a => { a with byBytes := b },
   .of "build_timeout_seconds" Argument.natural64 fun n a => { a with buildSeconds := n },
   .of "eval_timeout_seconds" Argument.natural64 fun n a => { a with experimentSeconds := n }]

/-- Reads arguments. -/
def ofJson : Json → Except ArgumentFault CacheArguments :=
  Argument.readAll "struct WebCacheArgs" arguments standard

/-- The arguments by name. -/
def toJson (a : CacheArguments) : Json :=
  .ofMembers [("trace", .str a.trace), ("cache_sizes", .arr (a.sizes.map .ofFloat)),
    ("eval_cache_size", .ofFloat a.scoredSize), ("percent", .bool a.percent),
    ("byte", .bool a.byBytes), ("build_timeout_seconds", .ofNat a.buildSeconds),
    ("eval_timeout_seconds", .ofNat a.experimentSeconds)]

/-- Two sizes are the same up to rounding. -/
def sameSize (a b : Float) : Bool := (a - b).abs < 1e-9

/-- A size in a sentence. -/
def sizeText (x : Float) : String := Decimal.plainStyle.write x

/-- Sizes in a list. -/
def sizesText (xs : List Float) : String :=
  "[" ++ ", ".intercalate (xs.map Decimal.listedStyle.write) ++ "]"

/-- The first size that is listed again later. -/
def repeated? : List Float → Option Float
  | [] => none
  | x :: rest => if rest.any (sameSize x) then some x else repeated? rest

/-- The arguments make sense: the size that counts is one of the sizes, none of which is listed
twice, and there is a unit in which to count. -/
def check (a : CacheArguments) : Except Failure Unit :=
  if !(a.sizes.any fun s => sameSize s a.scoredSize) then
    .error (.configuration ("eval_cache_size " ++ sizeText a.scoredSize
      ++ " must be one of cache_sizes " ++ sizesText a.sizes))
  else
    match repeated? a.sizes with
    | some x => .error (.configuration ("cache_sizes contains " ++ sizeText x ++ " more than once"))
    | none =>
      if a.percent || a.byBytes then .ok ()
      else .error (.configuration "webcache needs percent or byte to be enabled")

/-! ## Rows -/

/-- The rows of an output: the lines that open with a brace and hold a value. -/
def rows (output : String) : List Json :=
  (Text.lines output.toList).filterMap fun line =>
    if (Text.trimStartList line).head? = some '\x7b' then Json.parse? (String.ofList line) else none

/-- The size that a row carries. -/
def rowSize (row : Json) : Option Float := (row.get? "cache_size_mb").bind Json.number?

/-- The order key of a row: rows without a size come last. -/
def rowKey (row : Json) : Int := Binary.totalKey ((rowSize row).getD Binary.greatest)

/-- The rows as they are logged: by size if sizes are percentages. -/
def orderedRows (a : CacheArguments) (rows : List Json) : List Json :=
  if a.percent then rows.mergeSort fun r s => rowKey r ≤ rowKey s else rows

/-- The row of the size that counts, among the ordered rows. Ranks are compared only if there is
one row for each size; otherwise exactly one row has to carry the size. -/
def scoredRow (a : CacheArguments) (rows : List Json) : Option Json :=
  if a.percent then
    let sizes := a.sizes.mergeSort fun x y => Binary.totalKey x ≤ Binary.totalKey y
    if rows.length = sizes.length then
      (sizes.findIdx? fun s => sameSize s a.scoredSize).bind fun rank => rows[rank]?
    else none
  else
    match rows.filter fun r => (rowSize r).any fun s => sameSize s a.scoredSize with
    | [row] => some row
    | _ => none

/-- The column of the miss ratio that counts. -/
def column (a : CacheArguments) : String := if a.byBytes then "byte_miss_ratio" else "miss_ratio"

/-- What a run of the simulator comes to. -/
def outcome (a : CacheArguments) (r : CommandResult) : Outcome :=
  if !r.success then ⟨false, .empty, r.toJson⟩
  else
    let rows := a.orderedRows (rows r.stdout)
    match ((a.scoredRow rows).bind fun row => row.get? a.column).bind Json.number? with
    | some miss =>
      ⟨true, .ofMembers [("score", .ofFloat (1.0 - miss)), ("results", .arr rows)], r.toJson⟩
    | none =>
      ⟨false, .ofMembers [("results", .arr rows)],
        .ofMembers [("returncode", (r.code.map Json.ofNat).getD .null), ("stdout", .str r.stdout),
          ("stderr", .str r.stderr),
          ("error", .str ("no unique " ++ a.column ++ " result for cache size "
            ++ sizeText a.scoredSize))]⟩

end CacheArguments

end HeuristicEvolution
