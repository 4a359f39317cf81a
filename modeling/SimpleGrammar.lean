import SimpleGrammar.CommandLine.Directory
import SimpleGrammar.Main
import SimpleGrammar.Proofs.Agreement
import SimpleGrammar.Proofs.Closure
import SimpleGrammar.Proofs.Code.Cursor
import SimpleGrammar.Proofs.Code.Rescanning
import SimpleGrammar.Proofs.CommandLine.Verdicts
import SimpleGrammar.Proofs.Generation.Headroom
import SimpleGrammar.Proofs.Generation.Recovery
import SimpleGrammar.Proofs.Generation.Steering
import SimpleGrammar.Proofs.Generation.Support
import SimpleGrammar.Proofs.Generation.Uniform
import SimpleGrammar.Proofs.Grammar.Histories
import SimpleGrammar.Proofs.Recognition.Prefix
import SimpleGrammar.Proofs.Recognition.Rounds
import SimpleGrammar.Proofs.Recognition.Stack
import SimpleGrammar.Proofs.Recognition.Viable
import SimpleGrammar.Proofs.Reordering
import SimpleGrammar.Proofs.Source.Building
import SimpleGrammar.Proofs.Source.Files
import SimpleGrammar.Proofs.Source.Layout
import SimpleGrammar.Proofs.Source.LineGrammar
import SimpleGrammar.Proofs.Source.Meaning
import SimpleGrammar.Proofs.Source.Spelling
import SimpleGrammar.Workspace
