import HeuristicEvolution.Candidate.Basic
import HeuristicEvolution.Decimal.Read
import HeuristicEvolution.Task.Argument
import HeuristicEvolution.Text.Lines
import HeuristicEvolution.Text.Search

/-!
# Links and what is measured on them

The shape of an emulated link, and the summary of one flow over it. The summary is read from a
report of a few lines; a flow that has no throughput did not run.

## Main definitions

* `Link`: the shape, with the bandwidth-delay product and the queue that follow from it.
* `LinkSummary.ofReport?`: the figures of a report.
* `FlowReport.outcome`: what an experiment on the link comes to.
-/

namespace HeuristicEvolution

/-- A link: bandwidth in Mbit/s, one-way delay in ms, queue length as a multiple of the
bandwidth-delay product, and the length of the flow in seconds. -/
structure Link where
  bandwidth : Nat
  delay : Nat
  multiplier : Nat
  seconds : Nat
  deriving DecidableEq, Repr, Inhabited

namespace Link

/-- The link of an experiment for which nothing else is asked. -/
def standard : Link := ⟨12, 20, 2, 20⟩

/-- The fields of a link. -/
def arguments : List (Argument Link) :=
  [.of "bw" Argument.natural32 fun n link => { link with bandwidth := n },
   .of "delay" Argument.natural32 fun n link => { link with delay := n },
   .of "bdp_multiplier" Argument.natural32 fun n link => { link with multiplier := n },
   .of "timeout" Argument.natural64 fun n link => { link with seconds := n }]

/-- Reads a link. -/
def ofJson : Json → Except ArgumentFault Link := Argument.readAll "struct LinkArgs" arguments standard

/-- The bandwidth-delay product in packets of 1500 bytes. -/
def product (link : Link) : Float :=
  2.0 * Binary.ofNat link.bandwidth * Binary.ofNat link.delay / 12.0

/-- A double that is not negative as the nearest natural number of 64 bits, a half going to the even
one; what does not fit becomes the greatest one. -/
def nearestNat (x : Float) : Nat :=
  match Binary.ofFloat? x with
  | none => Nat.pow 2 64 - 1
  | some v =>
    let rounded :=
      Binary.roundDiv (v.mantissa * Nat.pow 2 v.exponent.toNat) (Nat.pow 2 (-v.exponent).toNat)
    min rounded (Nat.pow 2 64 - 1)

/-- The length of the queue in packets. -/
def queue (link : Link) : Nat := nearestNat (link.product * Binary.ofNat link.multiplier)

/-- The link with what follows from it. -/
def toJson (link : Link) : Json :=
  .ofMembers [("bw", .ofNat link.bandwidth), ("delay", .ofNat link.delay),
    ("bdp_multiplier", .ofNat link.multiplier), ("timeout", .ofNat link.seconds),
    ("bdp", .ofFloat link.product), ("qs", .ofNat link.queue)]

end Link

/-- The figures of a flow: percent of the link, Mbit/s, and two delays in ms. -/
structure LinkSummary where
  utilization : Float
  throughput : Float
  queueingDelay : Float
  signalDelay : Float
  deriving Inhabited

namespace LinkSummary

/-- The number that a word stands for. -/
def number? (word : List Char) : Option Float := Decimal.readFloat? (String.ofList word)

/-- The number that a word stands for, or zero. -/
def numberOrZero (word : List Char) : Float := (number? word).getD 0.0

/-- The last word but one; the empty one if there are fewer than two. -/
def lastButOne (words : List (List Char)) : List Char :=
  if words.length < 2 then [] else (words[words.length - 2]?).getD []

/-- A percentage without the bracket before it and the sign behind it. -/
def percentage (word : List Char) : List Char :=
  ((word.dropWhile (· = '(')).reverse.dropWhile (· = '%')).reverse

/-- What marks the line of the throughput and the utilization. -/
def utilizationMark : List Char := "utilization".toList

/-- What marks the line of the queueing delay. -/
def queueingMark : List Char := "95th percentile per-packet queueing delay".toList

/-- What marks the line of the signal delay. -/
def signalMark : List Char := "95th percentile signal delay".toList

/-- The figures read so far, and whether a throughput is among them. -/
structure Reading where
  figures : LinkSummary
  measured : Bool
  deriving Inhabited

/-- The reading of one more line. A line may carry several marks. -/
def readLine (r : Reading) (line : List Char) : Reading :=
  let words := Text.words line
  let figure := lastButOne words
  let r := if Text.hasPart utilizationMark line then
      let figures := { r.figures with utilization := numberOrZero (percentage figure) }
      match (words[2]?).bind number? with
      | some t => ⟨{ figures with throughput := t }, true⟩
      | none => { r with figures }
    else r
  let r := if Text.hasPart queueingMark line then
      { r with figures := { r.figures with queueingDelay := numberOrZero figure } }
    else r
  if Text.hasPart signalMark line then
    { r with figures := { r.figures with signalDelay := numberOrZero figure } }
  else r

/-- The figures of a report; there are none without a throughput. -/
def ofReport? (report : String) : Option LinkSummary :=
  let r := (Text.lines report.toList).foldl readLine ⟨⟨0.0, 0.0, 0.0, 0.0⟩, false⟩
  if r.measured then some r.figures else none

/-- Throughput against queueing delay. The small summand keeps an empty queue finite. -/
def score (s : LinkSummary) : Float := s.throughput / (1e-5 + s.queueingDelay)

/-- The figures by name. -/
def toJson (s : LinkSummary) : Json :=
  .ofMembers [("utilization", .ofFloat s.utilization), ("throughput", .ofFloat s.throughput),
    ("queuing_delay_95p", .ofFloat s.queueingDelay), ("signal_delay_95p", .ofFloat s.signalDelay)]

end LinkSummary

/-- What a flow leaves: its figures, if it ran, and logs. -/
structure FlowReport where
  summary : Option LinkSummary
  logs : Json
  deriving Inhabited

/-- An object with the members of another one put over its own; other values stay as they are. -/
def Json.overlay (j : Json) : Json → Json
  | .obj ms => ms.foldl (fun j (k, v) => j.insert k v) j
  | _ => j

/-- The outcome of an experiment: it has a score if the flow ran. The logs of helpers are put
over those of the flow. -/
def FlowReport.outcome (r : FlowReport) (helperLogs : Json) : Outcome :=
  let logs := r.logs.overlay helperLogs
  match r.summary with
  | some s =>
    ⟨true, .ofMembers [("score", .ofFloat s.score), ("results", s.toJson)], logs⟩
  | none => ⟨false, .empty, logs⟩

end HeuristicEvolution
