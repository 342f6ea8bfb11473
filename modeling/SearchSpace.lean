import SearchSpace.Counter
import SearchSpace.Graph
import SearchSpace.Main
import SearchSpace.Proofs.BreadthFirst.Round
import SearchSpace.Proofs.BreadthFirst.History
import SearchSpace.Proofs.BreadthFirst.Shortest
import SearchSpace.Proofs.DepthFirst.Exploration
import SearchSpace.Proofs.DepthFirst.FirstSolution
import SearchSpace.Proofs.Assignment
import SearchSpace.Proofs.Expr
import SearchSpace.Proofs.Puzzle.Variables
import SearchSpace.Proofs.Path
import SearchSpace.Proofs.Soundness
import SearchSpace.Proofs.Puzzle.Built
import SearchSpace.Proofs.Puzzle.Completion
import SearchSpace.Proofs.Puzzle.Key
import SearchSpace.Proofs.Termination
import SearchSpace.Proofs.Puzzle.LeastDigits
import SearchSpace.Proofs.Puzzle.Solved
import SearchSpace.Proofs.Puzzle.Bounds
import SearchSpace.Proofs.Expr.Text
import SearchSpace.Proofs.Answers
import SearchSpace.Proofs.Limits
import SearchSpace.Proofs.Survey
import SearchSpace.Proofs.Agreement
import SearchSpace.Proofs.ClosedOff
import SearchSpace.Proofs.DepthFirst.Shortcut
import SearchSpace.Proofs.BreadthFirst.Comparison
import SearchSpace.Proofs.Sharing
import SearchSpace.Proofs.Unpruned
import SearchSpace.Proofs.DepthFirst.Pruning
import SearchSpace.Proofs.Pruning
import SearchSpace.Proofs.Puzzle.Legible
import SearchSpace.Proofs.Json.Lexeme
import SearchSpace.Proofs.Json.Reader
import SearchSpace.Proofs.Document.Expr
import SearchSpace.Proofs.Document.Puzzle
import SearchSpace.Proofs.Document.RoundTrip
import SearchSpace.Proofs.Puzzle.Described
import SearchSpace.Proofs.CommandLine
import SearchSpace.Proofs.Exact
import SearchSpace.Proofs.Puzzle.Extremes
import SearchSpace.Proofs.Puzzle.Session
import SearchSpace.Proofs.DepthFirst.Stack
import SearchSpace.Proofs.Halting
import SearchSpace.Proofs.Account
import SearchSpace.Proofs.DepthFirst.Account
import SearchSpace.Proofs.BreadthFirst.Account
import SearchSpace.Proofs.Counters
import SearchSpace.Proofs.Footprint
import SearchSpace.Proofs.Text.ByteOrder
import SearchSpace.Proofs.Expr.Nodes
import SearchSpace.Proofs.Puzzle.Creation
import SearchSpace.Proofs.Puzzle.Reachable
import SearchSpace.Proofs.Interchange
import SearchSpace.Proofs.Deduplicated
import SearchSpace.Proofs.Puzzle.Stepwise
import SearchSpace.Proofs.BreadthFirst.Queue
import SearchSpace.Proofs.DepthFirst.Descent
import SearchSpace.Proofs.Document.Presented
