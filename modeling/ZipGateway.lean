import ZipGateway.S2.Negotiation
import ZipGateway.S2.LockStep
import ZipGateway.S2.MpanSequence
import ZipGateway.S2.AadBound
import ZipGateway.S2.Retries
import ZipGateway.S2.MulticastClass
import ZipGateway.S2.ParseFailure
import ZipGateway.S2.CcmRoundTrip
import ZipGateway.TransportService.Fragments
import ZipGateway.TransportService.Replies
import ZipGateway.TransportService.TieBreak
import ZipGateway.Security0.Replay
import ZipGateway.Security0.Truncation
import ZipGateway.Security0.Bounds
import ZipGateway.SendData.Abort
import ZipGateway.SendRequest.Abort
import ZipGateway.SendData.Delivery
import ZipGateway.SendData.Buffers
import ZipGateway.Bridge.Associations
import ZipGateway.NodeQueue.Order
import ZipGateway.NodeQueue.Requeued
import ZipGateway.Mailbox.LastEntry
import ZipGateway.Multicast.UseAge
import ZipGateway.Provisioning.Persistence
import ZipGateway.Provisioning.Iteration
import ZipGateway.Provisioning.SetGet
import ZipGateway.Inclusion.Endings
import ZipGateway.Inclusion.KeyVerify
import ZipGateway.Bridge.IpOutcome
import ZipGateway.Udp.Acknowledged
import ZipGateway.Udp.NodeDiscovery
import ZipGateway.Udp.Encapsulation
import ZipGateway.Udp.Sending
import ZipGateway.Udp.Calls
import ZipGateway.SerialApi.Process
import ZipGateway.Directory.Aggregated
import ZipGateway.Directory.EpIteration
import ZipGateway.Directory.ClassSupport
import ZipGateway.Directory.SucId
import ZipGateway.Directory.WakeUp
import ZipGateway.Directory.Unique
import ZipGateway.Directory.Endpoints
import ZipGateway.Directory.Failing
import ZipGateway.Directory.References
import ZipGateway.Names.Renaming
import ZipGateway.Mdns.Parsing
import ZipGateway.Mdns.Compression
import ZipGateway.Mdns.TieBreak
import ZipGateway.Mdns.ExtendedNif
import ZipGateway.NetworkManagement.Orderly
import ZipGateway.NetworkManagement.Handover
import ZipGateway.Restore.Backup
import ZipGateway.ClassicZip.Bounds
import ZipGateway.Inclusion.Admission
import ZipGateway.Inclusion.KeyTurns
import ZipGateway.ClassicZip.ExtHeader
import ZipGateway.Directory.VersionProbe
import ZipGateway.Application.UniqueClasses
import ZipGateway.Application.Indicator
import ZipGateway.Dhcp.NatTable
import ZipGateway.S2.VerifyDelivery
import ZipGateway.NetworkManagement.NodeLists
import ZipGateway.NetworkManagement.ReplyFrames
import ZipGateway.SerialApi.Dispatch
import ZipGateway.SerialApi.Link
import ZipGateway.Restore.NodeConsistency
import ZipGateway.Directory.SmallMemory
import ZipGateway.Crypto.NextNonce
