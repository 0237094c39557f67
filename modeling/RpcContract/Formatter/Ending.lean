/-!
# How programs end

A program ends with a status, where zero is success, or is stopped by a signal.
-/

namespace RpcContract.Formatter

inductive Ending where
  | exited (status : Nat)
  | stopped (signal : Nat)
deriving DecidableEq, Repr, Inhabited

namespace Ending

def isSuccess (ending : Ending) : Bool := ending = .exited 0

def signals : List (Nat × String) := [
  (1, "HUP"), (2, "INT"), (3, "QUIT"), (6, "ABRT"), (9, "KILL"), (13, "PIPE"), (14, "ALRM"),
  (15, "TERM")]

def dumping : List Nat := [3, 6]

def text : Ending → String
  | .exited status => "exit status: " ++ toString status
  | .stopped signal =>
      let name := ((signals.lookup signal).map fun name => " (SIG" ++ name ++ ")").getD ""
      let dump := if dumping.contains signal then " (core dumped)" else ""
      "signal: " ++ toString signal ++ name ++ dump

end Ending

end RpcContract.Formatter
