import HeuristicEvolution.Reply.Comment
import HeuristicEvolution.Text.Blank

/-!
# Prompts

What the model is asked: a first prompt that states the problem and the form of the reply, a
mutation prompt that shows earlier versions, and a repair prompt that shows the logs of a failed
build. The shape is shared by all tasks; the problem statement is the task's own.
-/

namespace HeuristicEvolution.Prompt

/-- The diagnostic recorded for a reply without code, in place of the logs of a build. -/
def noCodeDiagnostic : String := "Could not find a code block inside your response."

/-- The prompt that answers a reply without code. -/
def noCodeReprompt : String :=
  "Could not find a code block inside your previous message. Please format correctly."

/-- The parts of a reply, in the order in which they are asked for. -/
def replyPlan : String :=
  "<reason about the inputs and the main tradeoff>\n"
    ++ "<propose two or three concrete, well-defined ideas>\n"
    ++ "<pick one, give it a short title, and describe it in plain English>\n"
    ++ "<write the implementation in a single code block>"

/-- One version of a mutation prompt: its number, then its code without comments, trimmed. -/
def versionBlock (lang : String) (number : Nat) (code : String) : String :=
  "```" ++ lang ++ "\n// Version " ++ toString number ++ "\n"
    ++ Text.trim (Comment.stripComments code) ++ "\n```\n"

/-- The earlier versions of a mutation prompt, best first, numbered from zero. -/
def versionBlocks (lang : String) (codes : List String) : String :=
  String.join (codes.mapIdx (versionBlock lang))

/-- Asks for a first version. -/
def initial (context lang plan : String) : String :=
  context ++ "\n\nUse this format for your reply:\n" ++ plan ++ "\nCode:\n```" ++ lang
    ++ "\n<your code here>\n```\n"

/-- Asks for a version that improves on earlier ones, which are shown best first. -/
def mutation (context lang : String) (codes : List String) (placeholder : String) : String :=
  context ++ "\n\nBelow are earlier versions, best first. Write a new version that improves on "
    ++ "them or explores a different idea. A rename or a reordering is not a new version.\n\n"
    ++ versionBlocks lang codes
    ++ "Now write your new version in a single code block:\nCode:\n```" ++ lang ++ "\n"
    ++ placeholder ++ "\n```\n"

/-- Asks for a repair after a failed build. The code is spliced into a larger file, so the line
numbers of the logs need not be those of the code. -/
def repair (stdout stderr : String) : String :=
  "Your code failed to build or load. The logs are below. Work out what went wrong and "
    ++ "reply with a corrected version of the whole code in a single code block, as before. "
    ++ "Line numbers in the logs may not match your code: it is inserted into a larger file.\n\n"
    ++ "### <stdout>: " ++ Text.trim stdout ++ "\n\n### <stderr>: " ++ Text.trim stderr ++ "\n"

/-! ## Problem statements -/

/-- The problem of the cache simulator: a priority for a queue that evicts its least member. -/
def cacheContext : String :=
  "You are designing an eviction heuristic for a priority-queue cache. On every access the "
    ++ "object is removed from the queue, its priority is recomputed with `priority`, and it is "
    ++ "reinserted; the lowest priority is evicted when space is needed.\n\n"
    ++ "```cpp\n"
    ++ "int priority(\n"
    ++ "    uint64_t current_time, obj_id_t obj_id, pq_cache_obj_info& obj_info,\n"
    ++ "    CountsInfo<int32_t>& counts, AgeInfo<int64_t> ages, SizeInfo<int64_t>& sizes,\n"
    ++ "    History& history\n"
    ++ ");\n"
    ++ "```\n\n"
    ++ "Higher values keep an object cached longer. `obj_info` carries the object's access count, "
    ++ "last access time, size and insertion time; `counts`, `ages` and `sizes` summarize the "
    ++ "objects currently cached; `history` holds recently evicted objects. Write only the body of "
    ++ "a function with exactly this signature and use only these inputs."

/-- The problem of the two network tasks: two functions of a congestion controller. -/
def congestionContext : String :=
  "You are a networking engineer designing a TCP congestion control algorithm for the Linux "
    ++ "kernel. Implement both functions:\n\n"
    ++ "```c\n"
    ++ "static u32 cong_control_logic(u8 ca_state, const struct heuristic_state *st, const struct rate_sample *rs, u32 prev_cwnd);\n"
    ++ "static u32 undo_cwnd_logic(u8 ca_state, const struct heuristic_state *st, u32 prev_cwnd);\n"
    ++ "```\n\n"
    ++ "`ca_state` is the kernel congestion state (TCP_CA_Open, TCP_CA_Disorder, TCP_CA_CWR, "
    ++ "TCP_CA_Recovery, TCP_CA_Loss). `rs` is the kernel rate sample (delivered, interval_us, "
    ++ "rtt_us, losses, acked_sacked, prior_in_flight, is_app_limited). `st` tracks flow-wide "
    ++ "statistics (min/max rtt and bandwidth, inflight bytes, max cwnd seen) and a history of "
    ++ "per-RTT windows via `history_get(st, i)`.\n\n"
    ++ "Rules: use only these inputs, no globals, no memory allocation, no floating point (use "
    ++ "integer math such as `(x * 8) / 10`). The prototypes already exist; do not redeclare them."

/-- What stands in the code block of a mutation prompt for a congestion controller. -/
def congestionPlaceholder : String := "// cong_control_logic and undo_cwnd_logic"

/-- What stands in the code block of a mutation prompt for a cache. -/
def cachePlaceholder : String := "// priority function"

/-- The problem of a congestion controller that a verifier has to accept. -/
def probeContext : String :=
  "You are a networking engineer designing a TCP congestion control algorithm that runs as "
    ++ "eBPF inside the Linux kernel. Implement:\n\n"
    ++ "```c\n"
    ++ "static inline u32 bpf_core_logic(u8 ca_state, struct heuristic_state* st, const struct rate_sample* rs, u32 prev_cwnd);\n"
    ++ "```\n\n"
    ++ "It returns the new congestion window. `ca_state`, `rs` and `st` are as in the kernel "
    ++ "congestion-control API, with `st` adding flow-wide statistics and a per-RTT window history "
    ++ "via `history_get(st, i)`. The eBPF verifier must accept the code: bounded loops only, no "
    ++ "floating point, no globals, no calls outside the provided helpers."

/-- What stands in the code block of a mutation prompt for a probe. -/
def probePlaceholder : String := "// bpf_core_logic"

end HeuristicEvolution.Prompt
