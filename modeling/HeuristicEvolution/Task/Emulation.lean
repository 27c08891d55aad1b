import HeuristicEvolution.Task.Basic
import HeuristicEvolution.Task.Link

/-!
# Flows over an emulated link

A traffic server is started, one flow runs over the emulated link, the server is stopped, and the
log of the uplink is summed up. A log of an earlier flow is removed first, so that a flow that
leaves no log has no figures.

## Main definitions

* `Emulation`: a link and the tree with the traces and tools.
* `Emulation.check`: everything that a flow needs is there.
* `Emulation.runFlow`: one flow.
-/

namespace HeuristicEvolution

/-- A link and the root of the tree in which its traces and tools lie. -/
structure Emulation where
  link : Link
  root : String
  deriving DecidableEq, Repr, Inhabited

namespace Emulation

/-- The directory of the traces. -/
def traces (e : Emulation) : String := Path.append e.root "tcp_cc/evaluate/sage_traces/traces"

/-- The directory of the logs. -/
def logs (e : Emulation) : String := Path.append e.root "tcp_cc/evaluate/logs"

/-- The directory of the tools. -/
def tools (e : Emulation) : String := Path.append e.root "tcp_cc/utils"

/-- The trace of the uplink. -/
def uplinkTrace (e : Emulation) : String :=
  Path.append e.traces ("wired" ++ toString e.link.bandwidth)

/-- The trace of the downlink, which is the same for all links. -/
def downlinkTrace (e : Emulation) : String := Path.append e.traces "wired192"

/-- The log of the uplink, by which a flow is measured. -/
def uplinkLog (e : Emulation) : String := Path.append e.logs "down"

/-- The traces and tools that have to be there. -/
def needed (e : Emulation) : List String := [e.uplinkTrace, e.downlinkTrace, e.tools]

/-- Traces and tools are there. -/
def check (e : Emulation) (fs : Files) : Except Failure Unit := Backend.needsAll fs e.needed

/-- The script of a flow. -/
def flowScript (e : Emulation) : String :=
  let queue := toString e.link.queue
  "mm-delay " ++ toString e.link.delay ++ " mm-link " ++ e.uplinkTrace ++ " " ++ e.downlinkTrace
    ++ " --uplink-queue-args=\"packets=" ++ queue ++ "\" --downlink-queue-args=\"packets=" ++ queue
    ++ "\" --uplink-queue=droptail --downlink-queue=droptail --uplink-log=" ++ e.uplinkLog
    ++ " -- bash -c 'cd " ++ e.tools
    ++ " && sudo LD_PRELOAD=./heuristic.so iperf3 -c $MAHIMAHI_BASE -t " ++ toString e.link.seconds
    ++ "'"

/-- The script of the traffic server. -/
def serverScript : String := "iperf3 -s"

/-- The script that sums up the log of the uplink. -/
def summaryScript : String := "mm-throughput-graph 500 down > /dev/null"

/-- The log of a flow. A flow is cut at a bound as a rule, which is noted apart. -/
def flowLog (r : CommandResult) : Json := r.toJson.insert "cut_at_bound" (.bool r.timedOut)

/-- Runs one flow. The server lives no longer than the flow. -/
def runFlow (e : Emulation) : Action FlowReport := do
  Action.change none fun fs => fs.makeDirectories e.logs
  Action.tryChange fun fs => fs.removeFile e.uplinkLog
  let _ ← Action.attempt (Action.run "pkill iperf3" e.logs)
  let server ← Action.startHelper "iperf3-server" serverScript e.logs
  let flow ← Action.run e.flowScript e.logs
  let served ← server.stop
  let logs := Json.ofMembers
    [("iperf_logs", flowLog flow), ("iperf_server_logs", served.toJson)]
  if ← Action.files fun fs => fs.exists? e.uplinkLog then
    let summary ← Action.run summaryScript e.logs
    return ⟨LinkSummary.ofReport? summary.stderr,
      logs.insert "throughput_summary" (.str summary.stderr)⟩
  else return ⟨none, logs⟩

end Emulation

end HeuristicEvolution
