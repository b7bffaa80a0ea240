import Tabeld.Kdump.PoolRuns
import Tabeld.Kdump.Prefixes
import Tabeld.Kdump.Martians
import Tabeld.Kdump.Format
import Tabeld.Kdump.Buffers
import Tabeld.Kdump.Listing
import Tabeld.RouteTable.Runs
import Tabeld.RouteTable.Table
import Tabeld.KernelNetlink.Replies
import Tabeld.KernelNetlink.Import
import Tabeld.KernelNetlink.Scratch
import Tabeld.KernelNetlink.Modify
import Tabeld.KernelNetlink.Rejections
import Tabeld.KernelNetlink.Sending
import Tabeld.KernelNetlink.Defaults
import Tabeld.KernelNetlink.LocalAddress
import Tabeld.KernelNetlink.SetupFailure
import Tabeld.KernelNetlink.OldIfBounds
import Tabeld.KernelNetlink.Channels
import Tabeld.KernelNetlink.Dump
import Tabeld.KernelNetlink.Listening
import Tabeld.KernelNetlink.Rules
import Tabeld.KernelNetlink.Descriptors
import Tabeld.KernelNetlink.RouteRuns
import Tabeld.KernelNetlink.ProcFiles
import Tabeld.KernelNetlink.Interfaces
import Tabeld.KernelNetlink.Eui64
