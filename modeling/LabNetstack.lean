import LabNetstack.Network.ARPList
import LabNetstack.Network.Checksum
import LabNetstack.Network.Lookup
import LabNetstack.Network.ManualTable
import LabNetstack.Network.Selection
import LabNetstack.Routing.Asynchrony
import LabNetstack.Routing.Lengths
import LabNetstack.Stack.Echo
import LabNetstack.Stack.FromConnect
import LabNetstack.Transport.Accept
import LabNetstack.Transport.AckLaw
import LabNetstack.Transport.CloseLab
import LabNetstack.Transport.CloseOrder
import LabNetstack.Transport.EndOfFile
import LabNetstack.Transport.Ether
import LabNetstack.Transport.FinAck
import LabNetstack.Transport.FirstByte
import LabNetstack.Transport.Flow
import LabNetstack.Transport.Intake
import LabNetstack.Transport.LockBalance
import LabNetstack.Transport.Recovery
import LabNetstack.Transport.RecvQueue
import LabNetstack.Transport.SendQueue
import LabNetstack.Transport.SocketNodes
import LabNetstack.Transport.Truncation
