import LedgerScript.Main
import LedgerScript.Proofs.Check.Caching
import LedgerScript.Proofs.Eval.Constants
import LedgerScript.Proofs.Eval.Exchange
import LedgerScript.Proofs.Eval.Failing
import LedgerScript.Proofs.Eval.Moments
import LedgerScript.Proofs.Eval.Ranges
import LedgerScript.Proofs.Eval.Renewal
import LedgerScript.Proofs.Eval.Solvency
import LedgerScript.Proofs.Files.Confinement
import LedgerScript.Proofs.Ledger.Conservation
import LedgerScript.Proofs.Ledger.Credits
import LedgerScript.Proofs.Ledger.Packing
import LedgerScript.Proofs.Ledger.Tamper
import LedgerScript.Proofs.Ledger.WorkingSet
import LedgerScript.Proofs.Lexer.Lookahead
import LedgerScript.Proofs.Lexer.Names
import LedgerScript.Proofs.Parser.Literals
import LedgerScript.Proofs.Parser.NestingStatements
import LedgerScript.Proofs.Printer.Quoting
import LedgerScript.Proofs.Printer.Reparsing
import LedgerScript.Proofs.Schedule.Barriers
import LedgerScript.Proofs.Schedule.Exclusion
import LedgerScript.Proofs.Schedule.RoundRobin
import LedgerScript.Proofs.Source.Positions
import LedgerScript.Proofs.Trace.Ring
import LedgerScript.Proofs.Value.Positions
import LedgerScript.Proofs.Value.Refinement
import LedgerScript.Proofs.Value.Slots
import LedgerScript.Proofs.Wire.RoundTrip
