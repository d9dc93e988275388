import SignedPulse.Framework.HashMap
import SignedPulse.Framework.Bytes
import SignedPulse.Framework.Text
import SignedPulse.Framework.Sequential
import SignedPulse.Framework.Trace
import SignedPulse.Framework.Automaton
import SignedPulse.Protocol.RoundTrip
import SignedPulse.Protocol.SigningPayload
import SignedPulse.Protocol.Crypto
import SignedPulse.Protocol.ClientIdHex
import SignedPulse.Protocol.ClientIdSpelling
import SignedPulse.Protocol.ClientIdReading
import SignedPulse.Server.HelloReplay
import SignedPulse.Server.Firewall
import SignedPulse.Server.RevokeStart
import SignedPulse.Server.SingleUse
import SignedPulse.Server.FaultCounter
import SignedPulse.Server.Lockdown
import SignedPulse.Server.BlacklistCalls
import SignedPulse.Server.Caps
import SignedPulse.Server.Config
import SignedPulse.Client.Param
import SignedPulse.Client.Config
import SignedPulse.Server.CommandRunner
import SignedPulse.Server.Effects
import SignedPulse.Server.Capacity
import SignedPulse.Server.Sessions
import SignedPulse.Server.KeepAlive
import SignedPulse.Server.RejectionFrame
import SignedPulse.Server.Replies
import SignedPulse.Server.Blocks
import SignedPulse.Server.TimeArithmetic
import SignedPulse.Server.ClientStatus
import SignedPulse.Server.Disclosure
import SignedPulse.Client.Pulser
import SignedPulse.Client.Arrivals
import SignedPulse.Server.OpenGates
import SignedPulse.Server.Handshake
import SignedPulse.Server.Agreement
import SignedPulse.Server.HelloBudget
import SignedPulse.Server.LeaseHistory
import SignedPulse.Server.LockdownTimer
import SignedPulse.Server.BlacklistEvents
import SignedPulse.Server.Cli
import SignedPulse.Client.Cli
import SignedPulse.Client.PrintedAddress
import SignedPulse.Client.PacketSize
import SignedPulse.Protocol.SealedBlobs
import SignedPulse.Service.Launchd
import SignedPulse.Server.Independence
import SignedPulse.Server.Accounting
import SignedPulse.Framework.Attempts
import SignedPulse.Client.Cycle
import SignedPulse.Client.Daemon
import SignedPulse.Server.Snapshot
