import Teakra.Run.BlockRepeat
import Teakra.Run.Repeat
import Teakra.Spec.AddSub
import Teakra.Spec.Agu
import Teakra.Spec.Alb
import Teakra.Spec.BitReverse
import Teakra.Spec.Divide
import Teakra.Spec.Exchange
import Teakra.Spec.LoopStack
import Teakra.Spec.MinMax
import Teakra.Spec.Moda
import Teakra.Spec.Multiply
import Teakra.Spec.Norm
import Teakra.Spec.ProductSum
import Teakra.Spec.Shift
import Teakra.Spec.Stack
import Teakra.Spec.Viterbi
