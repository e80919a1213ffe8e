import TvmDebug.Trace.Basic
/-!
# Gas accounting

The machine reports an inflated cost for a few instructions. Such a cost is replaced by a nominal
one before costs are added.

* `Step.gas`: the cost of a step that counts.
* `gasBefore steps n`: what the first `n` steps cost together; `totalGas` is the cost of all.
-/
set_option autoImplicit false

namespace TvmDebug

/-- Costs above this one are not believed. -/
def gasLimit : UInt64 := 5000

/-- What a step with an unbelievable cost counts. -/
def nominalGas : UInt64 := 26

/-- The cost of a step that counts. -/
def Step.gas (s : Step) : UInt64 := if s.gasCost > gasLimit then nominalGas else s.gasCost

def sumGas (steps : List Step) : UInt64 := steps.foldl (fun sum s => sum + s.gas) 0

/-- What the first `n` steps cost together. -/
def gasBefore (steps : List Step) (n : Nat) : UInt64 := sumGas (steps.take n)

def totalGas (steps : List Step) : UInt64 := gasBefore steps steps.length

end TvmDebug
