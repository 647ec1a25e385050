import ZipGateway.S2.Context

/-!
# Kinds of node ids

The ranges of `zgw_nodemask.h`.
-/

namespace ZipGateway

def zwClassicMaxNodes : Nat := 232
def zwLrMinNodeId : Nat := 256
def zwLrMaxNodeId : Nat := 4000

def isClassic (n : Nat) : Bool :=
  decide (0 < n) && decide (n ≤ zwClassicMaxNodes)

def isLr (n : Nat) : Bool :=
  decide (zwLrMinNodeId ≤ n) && decide (n ≤ zwLrMaxNodeId)

def isClassicNode (node : NodeId) : Bool :=
  isClassic node.toNat

def isLrNode (node : NodeId) : Bool :=
  isLr node.toNat

theorem isLrNode_of_classic {node : NodeId} (h : isClassicNode node = true) : isLrNode node = false := by
  have hmax : node.toNat ≤ 232 := by
    simp only [isClassicNode, isClassic, Bool.and_eq_true, decide_eq_true_eq] at h
    exact h.2
  have hmin : ¬ zwLrMinNodeId ≤ node.toNat := by
    simp only [zwLrMinNodeId]
    omega
  rw [isLrNode, isLr, decide_eq_false hmin, Bool.false_and]

end ZipGateway
