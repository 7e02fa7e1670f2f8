import TypedScript.Ast.Invariant
import TypedScript.Build.Progress
import TypedScript.Compile.Assembly
import TypedScript.Files.Tree
import TypedScript.Main
import TypedScript.Proofs.Ast.Lookahead
import TypedScript.Proofs.Ast.RoundTrip
import TypedScript.Proofs.Ast.WellFormed
import TypedScript.Proofs.Binding.Innermost
import TypedScript.Proofs.Build.Protocol
import TypedScript.Proofs.Build.Transparent
import TypedScript.Proofs.Check.Complete
import TypedScript.Proofs.Compile.Calls
import TypedScript.Proofs.Compile.Limit
import TypedScript.Proofs.Compile.Release
import TypedScript.Proofs.Compile.Storage
import TypedScript.Proofs.Compile.Structs
import TypedScript.Proofs.Compile.Symbols
import TypedScript.Proofs.Compile.Total
import TypedScript.Proofs.Layout.Natural
import TypedScript.Proofs.Layout.Shared
import TypedScript.Proofs.Lower.Links
import TypedScript.Proofs.Machine.Instrumented
import TypedScript.Proofs.Source.Lines
import TypedScript.Proofs.Token.Draws
import TypedScript.Proofs.Token.Quoted
import TypedScript.Proofs.Ty.Canonical
import TypedScript.Proofs.Ty.Unfolding
