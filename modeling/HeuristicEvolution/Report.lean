import HeuristicEvolution.Decimal.Shortest
import HeuristicEvolution.Digest.Sha256
import HeuristicEvolution.Evolution.Basic

/-!
# Reports

The texts in which a finished call, a run and the list of runs are shown. Columns are padded to
a number of characters; what is longer stands as it is.
-/

namespace HeuristicEvolution.Report

/-- A text followed by blanks up to a width. -/
def padRight (width : Nat) (s : String) : String :=
  s ++ String.ofList (List.replicate (width - s.length) ' ')

/-- A text behind blanks up to a width. -/
def padLeft (width : Nat) (s : String) : String :=
  String.ofList (List.replicate (width - s.length) ' ') ++ s

/-- A score with four places, or a dash. -/
def score : Option Float → String
  | some x => Decimal.fixedPlaces 4 x
  | none => "-"

/-- What one call has done, in a sentence. -/
def evolution (s : Evolution.Summary) : String :=
  "\nRun " ++ s.runId ++ ": " ++ toString s.recorded ++ " recorded (" ++ toString s.built
    ++ " built, " ++ toString s.evaluated ++ " evaluated), " ++ toString s.skipped
    ++ " skipped, best score " ++ score s.bestScore

/-- One line of the table of iterations. -/
def iterationLine (iter recorded built evaluated best : String) : String :=
  "  " ++ padLeft 4 iter ++ "  " ++ padLeft 8 recorded ++ "  " ++ padLeft 6 built ++ "  "
    ++ padLeft 9 evaluated ++ "  " ++ padLeft 10 best ++ "\n"

/-- One line of the ranking of candidates. -/
def candidateLine (rank : Nat) (c : Candidate) : String :=
  "  " ++ padLeft 2 (toString (rank + 1)) ++ ". iter=" ++ padRight 3 (toString c.iter)
    ++ " sample=" ++ padRight 3 (toString c.sample) ++ " score=" ++ score c.score ++ "  code="
    ++ (c.finalCode.map Sha256.short).getD "" ++ "\n"

/-- A run with its iterations and its best candidates. -/
def run (info : RunInfo) (counts : List IterationCounts) (top : List Candidate) : String :=
  "Run " ++ info.runId ++ " (task " ++ info.task ++ ", model " ++ info.model ++ ", created "
    ++ info.createdAt ++ ")\n"
    ++ if counts.isEmpty then "  no candidates recorded\n"
      else
        "\n" ++ iterationLine "iter" "recorded" "built" "evaluated" "best"
          ++ String.join (counts.map fun c =>
              iterationLine (toString c.iter) (toString c.recorded) (toString c.built)
                (toString c.evaluated) (score c.bestScore))
          ++ if top.isEmpty then ""
            else "\n  Top candidates:\n" ++ String.join (top.mapIdx candidateLine)

/-- One line of the list of runs. -/
def listingLine (r : RunListing) : String :=
  padRight 16 r.runId ++ " " ++ padRight 9 r.task ++ " " ++ padRight 14 r.model ++ " "
    ++ padLeft 5 (toString r.candidates) ++ " candidates  best " ++ score r.bestScore ++ "  "
    ++ r.createdAt ++ "\n"

end HeuristicEvolution.Report
