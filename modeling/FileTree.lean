import FileTree.Main
import FileTree.Store.Integrity
import FileTree.Proofs.Path.Absolute
import FileTree.Proofs.Table.Slots
import FileTree.Proofs.Table.Tree
import FileTree.Proofs.Table.Preorder
import FileTree.Proofs.Table.Names
import FileTree.Proofs.Table.Way
import FileTree.Proofs.Table.Reuse
import FileTree.Proofs.Table.Space
import FileTree.Proofs.Store.Change
import FileTree.Proofs.Store.Sound
import FileTree.Proofs.Store.Removal
import FileTree.Proofs.Store.Integrity
import FileTree.Proofs.Store.Refusal
import FileTree.Proofs.Store.Ledger
import FileTree.Proofs.Store.Accounts
import FileTree.Proofs.Store.Naming
import FileTree.Proofs.Store.FullPath
import FileTree.Proofs.Store.NewFile
import FileTree.Proofs.Store.Creation
import FileTree.Proofs.ByPath.Refusal
import FileTree.Proofs.ByPath.Listing
import FileTree.Proofs.ByPath.Usage
import FileTree.Proofs.Session.Files
import FileTree.Proofs.Session.Served
import FileTree.Proofs.Session.Descriptor
import FileTree.Proofs.Session.Refusal
import FileTree.Proofs.Store.Alike
import FileTree.Proofs.Store.Transcript
import FileTree.Proofs.Session.WriteInSteps
import FileTree.Proofs.Store.FileContent
import FileTree.Proofs.Session.FileMachine
import FileTree.Proofs.Session.Refinement
import FileTree.Proofs.Session.RoundTrip
import FileTree.Proofs.ByPath.CurrentDirectory
import FileTree.Proofs.Shell.Input
import FileTree.Proofs.Shell.CurrentDirectory
import FileTree.Proofs.Log.History
import FileTree.Proofs.Store.Twins
import FileTree.Proofs.ByPath.Twins
import FileTree.Proofs.Shell.InStep
import FileTree.Proofs.Shell.Feeding
import FileTree.Proofs.Shell.Typing
import FileTree.Proofs.Shell.FedAlike
import FileTree.Proofs.Host.Feeding
import FileTree.Proofs.Host.InputLines
import FileTree.Proofs.Host.Runs
import FileTree.Proofs.Heap.Calls
import FileTree.Proofs.Heap.Exchange
import FileTree.Proofs.Log.Tally
import FileTree.Proofs.Store.Audit
import FileTree.Proofs.Store.Work
import FileTree.Proofs.Shell.Layers
import FileTree.Proofs.Table.Checked
import FileTree.Proofs.Store.Checked
import FileTree.Proofs.Store.Blame
import FileTree.Proofs.ByPath.Blame
import FileTree.Proofs.ByPath.Checked
import FileTree.Proofs.Session.Checked
import FileTree.Proofs.Shell.Checked
import FileTree.Proofs.Json.Spelling
import FileTree.Proofs.Json.Tokens
import FileTree.Proofs.Config.RoundTrip
import FileTree.Proofs.Store.NewEntry
import FileTree.Proofs.Store.Subtree
import FileTree.Proofs.Syscall.RoundTrip
import FileTree.Proofs.Store.Walk
import FileTree.Proofs.Store.Writing
import FileTree.Proofs.Path.Position
import FileTree.Proofs.Store.Renaming
import FileTree.Proofs.Session.Renaming
import FileTree.Proofs.ByPath.Writing
import FileTree.Proofs.ByPath.Copying
import FileTree.Proofs.ByPath.Finding
import FileTree.Proofs.Shell.Words
import FileTree.Proofs.Session.Handout
import FileTree.Proofs.Session.Codes
import FileTree.Proofs.Shell.Answers
import FileTree.Proofs.ByPath.Agreement
import FileTree.Proofs.CommandLine.Groups
import FileTree.Proofs.Shell.CurrentLine
