import FreeCore.Memory
import FreeCore.Kmalloc.Heap
import FreeCore.Kmalloc.Layout
import FreeCore.Kmalloc.Refinement
import FreeCore.Kmalloc.Contract
import FreeCore.Kmalloc.Run
import FreeCore.Kmalloc.Frees
import FreeCore.Kmalloc.Request
import FreeCore.Kmalloc.Realloc
import FreeCore.Ext4.Format
import FreeCore.Ext4.Kernel
import FreeCore.Ext4.Read
import FreeCore.Ext4.Dir
import FreeCore.Ext4.Mount
import FreeCore.Ext4.Vfs
import FreeCore.Ext4.Divisors
import FreeCore.Ext4.Extents
import FreeCore.Ext4.Records
import FreeCore.Ext4.Frame
import FreeCore.Ext4.FileBlock
import FreeCore.Ext4.FileData
import FreeCore.Ext4.Geometry
import FreeCore.Vfs.Path
import FreeCore.Printf.IntToString
import FreeCore.Printf.Kvsnprintf
import FreeCore.Printf.NumberText
import FreeCore.Printf.Reference
import FreeCore.Keyboard.Buffer
import FreeCore.Keyboard.Driver
import FreeCore.Lib.Minstd
import FreeCore.Drivers.Registry
import FreeCore.Vfs.Namespace
import FreeCore.Vfs.Descriptors
import FreeCore.Mouse.Packets
import FreeCore.Serial.Output
import FreeCore.Vfs.Entries
import FreeCore.Arch.Interrupts
