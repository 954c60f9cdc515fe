import OS2024.Lib.LinkedChain
import OS2024.Lib.Runs
import OS2024.Lib.Ownership
import OS2024.Lib.SlotTree
import OS2024.Stdlib.Copying
import OS2024.Disk.Ata
import OS2024.Disk.Inserter
import OS2024.Disk.Agreement
import OS2024.Fat32.Insertion
import OS2024.Fat32.Removal
import OS2024.Fat32.Requests
import OS2024.Fat32.Calls
import OS2024.Fat32.Wellformed
import OS2024.Fat32.RoundTrip
import OS2024.Fat32.Frame
import OS2024.Fat32.Trace
import OS2024.Fat32.Crash
import OS2024.Fat32.Reserved
import OS2024.Fat32.Deletion
import OS2024.Fat32.Lookup
import OS2024.Fat32.Accounting
import OS2024.Fat32.Remount
import OS2024.Fat32.Records
import OS2024.Fat32.Containment
import OS2024.Memory.Paging
import OS2024.Memory.Isolation
import OS2024.Memory.KernelMapping
import OS2024.Memory.Leaks
import OS2024.Memory.Capacity
import OS2024.Console.Keyboard
import OS2024.Console.Screen
import OS2024.Console.Layout
import OS2024.Console.Strokes
import OS2024.Shell.Strings
import OS2024.Shell.CommandLine
import OS2024.Shell.Commands
import OS2024.Shell.Navigation
import OS2024.Fat32.Relocation
import OS2024.Shell.Move
import OS2024.Shell.Moved
import OS2024.Shell.FileCommands
import OS2024.Shell.Dispatch
import OS2024.Shell.InputLine
import OS2024.Shell.Depth
import OS2024.Shell.Prompt
import OS2024.Shell.Copy
import OS2024.Fat32.Refusals
import OS2024.Fat32.Buffers
import OS2024.Fat32.Undo
import OS2024.Fat32.Disclosure
import OS2024.Fat32.Contents
import OS2024.Fat32.FreeSlots
import OS2024.Interrupts.Gates
import OS2024.Interrupts.KeyboardLine
import OS2024.Interrupts.Syscalls
import OS2024.Boot.Storage
import OS2024.Memory.Translation
import OS2024.Shell.Listing
