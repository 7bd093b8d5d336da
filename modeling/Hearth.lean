import Hearth.Lib.Effect
import Hearth.Lib.Transition
import Hearth.Lib.Layout
import Hearth.Virtio.Confinement
import Hearth.Virtio.Notify
import Hearth.Virtio.Termination
import Hearth.Lib.Counter
import Hearth.Lib.Dialogue
import Hearth.Virtio.Completion
import Hearth.Virtio.Panic
import Hearth.Control.Kick
import Hearth.Virtio.Disk
import Hearth.Virtio.Interrupt
import Hearth.Virtio.Receive
import Hearth.Lib.Scatter
import Hearth.Virtio.Delivery
import Hearth.Keyboard.Guest
import Hearth.Keyboard.Keystroke
import Hearth.Keyboard.Latch
import Hearth.Virtio.Admission
import Hearth.Virtio.Reset
import Hearth.Boot.Aarch64
import Hearth.Console.Line
import Hearth.Console.Output
import Hearth.Virtio.RingAddress
import Hearth.Virtio.UsedLength
import Hearth.Virtio.Walk
import Hearth.Boot.Slots
import Hearth.Boot.Tiling
import Hearth.Doom.Heap
import Hearth.Ports.StringAccess
import Hearth.Console.Escape
import Hearth.Console.Pl011
import Hearth.Control.Registry
import Hearth.Keyboard.Fifo
import Hearth.Keyboard.SetUp
import Hearth.Lib.Fields
import Hearth.Rfb.PixelFormat
import Hearth.Rfb.Scheduling
import Hearth.Rfb.Mirror
import Hearth.Rfb.Screen
import Hearth.Rfb.Session
import Hearth.Lib.Cells
import Hearth.Vga.Palette
import Hearth.Virtio.Framing
import Hearth.Lib.Chunks
import Hearth.Rfb.Messages
import Hearth.Boot.Elf
import Hearth.Boot.Pvh
import Hearth.Boot.Placement
import Hearth.Vga.Display
import Hearth.Vga.Convergence
import Hearth.Vga.Queued
import Hearth.Lib.Overlap
import Hearth.Lib.ShellSort
import Hearth.Doom.Memmove
import Hearth.Doom.Sort
import Hearth.Doom.Ctype
import Hearth.Doom.Files
import Hearth.Doom.Sleep
import Hearth.Doom.Printf
import Hearth.Doom.Numbers
import Hearth.Doom.Conversions
import Hearth.Doom.Limits
import Hearth.Lib.SeqLock
import Hearth.Lib.Words
import Hearth.Doom.Clock
import Hearth.Doom.CommandLine
import Hearth.Doom.Memory
import Hearth.Keyboard.Interrupts
import Hearth.Doom.Boot
