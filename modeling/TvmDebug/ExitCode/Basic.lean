import TvmDebug.DebugInfo.Basic
/-!
# Exit codes

* `exitCodeDescription`: what a standard exit code means.
* `ExitCode`: how an execution failed, with the instruction that raised the exception if it is
  known.
-/
set_option autoImplicit false

namespace TvmDebug

/-- The code of an out-of-gas exception that nothing handles; no contract can throw it. -/
def outOfGasCode : Int32 := -14

/-- What a standard exit code means; the codes without a meaning of their own belong to users. -/
def exitCodeDescription (num : Int32) : String :=
  match num.toInt with
  | 0 => "Standard successful execution"
  | 1 => "Alternative successful execution"
  | 2 => "Stack underflow"
  | 3 => "Stack overflow"
  | 4 => "Integer overflow"
  | 5 => "Integer out of expected range"
  | 6 => "Invalid opcode"
  | 7 => "Type check error"
  | 8 => "Cell overflow"
  | 9 => "Cell underflow"
  | 10 => "Dictionary error"
  | 11 => "Unknown error"
  | 12 => "Fatal error"
  | 13 => "Out of gas error"
  | -14 => "Out of gas error"
  | 14 => "Virtualization error"
  | 32 => "Action list is invalid"
  | 33 => "Action list is too long"
  | 34 => "Action is invalid or not supported"
  | 35 => "Invalid source address in outbound message"
  | 36 => "Invalid destination address in outbound message"
  | 37 => "Not enough Toncoin"
  | 38 => "Not enough extra currencies"
  | 39 => "Outbound message does not fit into a cell after rewriting"
  | 40 => "Cannot process a message"
  | 41 => "Library reference is null"
  | 42 => "Library change action error"
  | 43 => "Exceeded maximum number of cells in the library or maximum depth of the Merkle tree"
  | 50 => "Account state size exceeded limits"
  | _ => "User-defined error"

structure ExitCode where
  num : Int32
  description : String
  info : Option Instruction
deriving DecidableEq

end TvmDebug
