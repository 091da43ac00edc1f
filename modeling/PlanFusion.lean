import PlanFusion.Plan.Normal
import PlanFusion.Plan.Meaning
import PlanFusion.Runner
import PlanFusion.Builder.Reduce
import PlanFusion.Builder.Recipe
import PlanFusion.Script.Session
import PlanFusion.Proofs.Action.Agreement
import PlanFusion.Proofs.Machine.Bisimulation
import PlanFusion.Proofs.Machine.Sequencing
import PlanFusion.Proofs.Plan.Alike
import PlanFusion.Proofs.Plan.Transparency
import PlanFusion.Proofs.Machine.Closing
import PlanFusion.Proofs.Machine.Transducer
import PlanFusion.Proofs.Plan.Exhausted
import PlanFusion.Proofs.Plan.Meaning
import PlanFusion.Proofs.Plan.Widening
import PlanFusion.Proofs.Builder.Modes
import PlanFusion.Proofs.Builder.Meaning
import PlanFusion.Proofs.Plan.Regrouping
import PlanFusion.Proofs.Plan.Normality
import PlanFusion.Proofs.Builder.Eagerness
import PlanFusion.Proofs.Builder.Reduction
import PlanFusion.Proofs.Machine.Confinement
import PlanFusion.Proofs.Plan.Callables
import PlanFusion.Proofs.Runner.Totals
import PlanFusion.Proofs.Plan.Finality
import PlanFusion.Proofs.Process.Resumption
import PlanFusion.Proofs.Machine.Autonomy
import PlanFusion.Proofs.Process.Rounds
import PlanFusion.Proofs.Plan.Interruption
import PlanFusion.Proofs.Builder.Truncation
import PlanFusion.Proofs.Plan.Accounting
import PlanFusion.Proofs.Builder.Accounting
import PlanFusion.Proofs.Plan.Blocks
import PlanFusion.Plan.Chain
import PlanFusion.Proofs.Builder.Chains
import PlanFusion.Proofs.Machine.Replies
import PlanFusion.Proofs.Plan.Readability
import PlanFusion.Proofs.Plan.ReplyKinds
import PlanFusion.Proofs.Process.Settling
