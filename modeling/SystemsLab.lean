import SystemsLab.Bgp.Reflection
import SystemsLab.Bgp.Selection
import SystemsLab.Fs.Agreement
import SystemsLab.Fs.BufferCache
import SystemsLab.Fs.ByteRange
import SystemsLab.Fs.DirectoryGraph
import SystemsLab.Fs.InodeTable
import SystemsLab.Fs.LegalUnlink
import SystemsLab.Fs.RoundTrip
import SystemsLab.Hypervisor.Virtio
import SystemsLab.MiniOs.Images
import SystemsLab.MiniOs.References
import SystemsLab.MiniOs.Semaphores
import SystemsLab.MiniOs.UserPointers
import SystemsLab.Net.Dhcp
import SystemsLab.Net.Hops
import SystemsLab.Net.HostFrames
import SystemsLab.Net.OperatorGateway
import SystemsLab.Net.RouteOwnership
import SystemsLab.Net.SequenceRecovery
import SystemsLab.Runtime.Generations
import SystemsLab.Runtime.Revisions
import SystemsLab.Tcp.Acknowledgement
import SystemsLab.Tcp.Codec
import SystemsLab.Tcp.Held
import SystemsLab.Tcp.Network
import SystemsLab.Tcp.Progress
