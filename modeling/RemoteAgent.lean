import RemoteAgent.Fault.Body
import RemoteAgent.Service.Data
import RemoteAgent.Controller.Visit
import RemoteAgent.Agent.Bootstrap
import RemoteAgent.Main
import RemoteAgent.Proofs.Channel.Exchange
import RemoteAgent.Proofs.Memory.Map
import RemoteAgent.Proofs.Memory.Validation
import RemoteAgent.Proofs.Memory.Allocation
import RemoteAgent.Proofs.Action.Endings
import RemoteAgent.Proofs.Native.Failure
import RemoteAgent.Proofs.Text.Size
import RemoteAgent.Proofs.Agent.Replies
import RemoteAgent.Proofs.Agent.ReplySize
import RemoteAgent.Proofs.Channel.Failure
import RemoteAgent.Proofs.Channel.Sides
import RemoteAgent.Proofs.Service.Session
import RemoteAgent.Proofs.Channel.Consumption
import RemoteAgent.Proofs.Bridge.Traffic
import RemoteAgent.Proofs.Bridge.Account
import RemoteAgent.Proofs.Bridge.Exclusion
import RemoteAgent.Proofs.Bridge.Pairing
import RemoteAgent.Proofs.Controller.Visit
import RemoteAgent.Proofs.Controller.Callbacks
import RemoteAgent.Proofs.Controller.Succession
import RemoteAgent.Proofs.Service.Endurance
import RemoteAgent.Proofs.Service.Mirror
import RemoteAgent.Proofs.Agent.Roll
import RemoteAgent.Proofs.Channel.Door
import RemoteAgent.Proofs.Channel.Reach
import RemoteAgent.Proofs.Agent.Unstuck
import RemoteAgent.Proofs.Agent.Isolation
import RemoteAgent.Proofs.Agent.Failed
import RemoteAgent.Proofs.Fault.Guard
import RemoteAgent.Proofs.Fault.Bodies
import RemoteAgent.Proofs.Message.Delimiting
import RemoteAgent.Proofs.Memory.Protecting
import RemoteAgent.Proofs.Agent.Copies
import RemoteAgent.Proofs.Controller.Responses
import RemoteAgent.Proofs.Channel.Reception
import RemoteAgent.Proofs.Channel.Sending
import RemoteAgent.Proofs.Service.Parting
import RemoteAgent.Proofs.Memory.Partition
import RemoteAgent.Proofs.Memory.Line
import RemoteAgent.Proofs.Memory.Rounds
import RemoteAgent.Proofs.Memory.Surroundings
import RemoteAgent.Proofs.Host.Launch
import RemoteAgent.Proofs.Wire.Transfer
