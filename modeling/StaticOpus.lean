import StaticOpus.Codec.Session
import StaticOpus.Fatal
import StaticOpus.Hooks.Heap
import StaticOpus.Main
import StaticOpus.Storage.Use
import StaticOpus.Proofs.Codec.HandOver
import StaticOpus.Proofs.Codec.Contents
import StaticOpus.Proofs.Codec.Gate
import StaticOpus.Proofs.Header.Converge
import StaticOpus.Proofs.Header.Refusal
import StaticOpus.Proofs.Header.Check
import StaticOpus.Proofs.Header.Apart
import StaticOpus.Proofs.Hooks.NoHeap
import StaticOpus.Proofs.Task.Calls
import StaticOpus.Proofs.Task.Tests
import StaticOpus.Proofs.Task.Checks
import StaticOpus.Proofs.Codec.VersionGate
import StaticOpus.Proofs.Codec.Audit
import StaticOpus.Proofs.Codec.Builds
import StaticOpus.Proofs.Codec.Texts
import StaticOpus.Proofs.CommandLine
import StaticOpus.Proofs.Program
import StaticOpus.Proofs.Text.Blank
import StaticOpus.Proofs.Text.Lossy
import StaticOpus.Proofs.Text.Mark
import StaticOpus.Proofs.TestSummary
import StaticOpus.Proofs.TestSummary.ResultLines
import StaticOpus.Proofs.Codec.SingleChecks
import StaticOpus.Proofs.Codec.Decision
import StaticOpus.Proofs.Hooks.Forwarding
import StaticOpus.Proofs.FileTree.Layer
import StaticOpus.Proofs.Text.Decimal
import StaticOpus.Proofs.Codec.Reading
import StaticOpus.Proofs.Task.Step
import StaticOpus.Proofs.Text.Squeeze
import StaticOpus.Proofs.Text.Wording
import StaticOpus.Proofs.Text.Record
import StaticOpus.Proofs.Fault
import StaticOpus.Proofs.Storage.History
import StaticOpus.Proofs.Terminal.Display
import StaticOpus.Proofs.Text.Plain
import StaticOpus.Proofs.Task.Chronicle
import StaticOpus.Proofs.Task.Colours
