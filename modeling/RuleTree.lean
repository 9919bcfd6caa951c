import RuleTree.CommandLine.Directory
import RuleTree.Main
import RuleTree.Proofs.Alike
import RuleTree.Proofs.Appending
import RuleTree.Proofs.Blame
import RuleTree.Proofs.Display
import RuleTree.Proofs.Draining
import RuleTree.Proofs.Excerpts
import RuleTree.Proofs.Grammar
import RuleTree.Proofs.Log
import RuleTree.Proofs.NestingLimit
import RuleTree.Proofs.Ownership
import RuleTree.Proofs.Payload
import RuleTree.Proofs.Positions
import RuleTree.Proofs.Separators
import RuleTree.Proofs.Thinning
import RuleTree.Proofs.Tiling
import RuleTree.Proofs.TokenExchange
import RuleTree.Proofs.TokenFile
import RuleTree.Proofs.TreeText
import RuleTree.Proofs.Fitting
import RuleTree.Proofs.Maximal
import RuleTree.Proofs.Joining
import RuleTree.Proofs.SelectorText
import RuleTree.Proofs.Agreement
import RuleTree.Proofs.Progress
import RuleTree.Proofs.Splitting
import RuleTree.Proofs.RuleNames
import RuleTree.Proofs.Outlines
import RuleTree.Proofs.Laminar
import RuleTree.Proofs.Terminators
