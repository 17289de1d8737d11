import TokenTape.Program
import TokenTape.Session
import TokenTape.Main
import TokenTape.Proofs.Scanner.Scan
import TokenTape.Proofs.Scanner.Accesses
import TokenTape.Proofs.Scanner.Concatenation
import TokenTape.Proofs.Scanner.LexicalGrammar
import TokenTape.Proofs.Scanner.LineAccount
import TokenTape.Proofs.Tape.Ledger
import TokenTape.Proofs.Tape.Outcome
import TokenTape.Proofs.Tape.RoundTrip
import TokenTape.Proofs.Reading.Advance
import TokenTape.Proofs.Reading.Joined
import TokenTape.Proofs.Lexer.LineFed
import TokenTape.Proofs.Lexer.PriorWords
import TokenTape.Proofs.Lexer.FailurePlaces
import TokenTape.Proofs.Tape.Canonical
import TokenTape.Proofs.Tape.Peeking
import TokenTape.Proofs.Session.Reproducible
import TokenTape.Proofs.Scanner.Progress
import TokenTape.Proofs.Scanner.StringLiteral
import TokenTape.Proofs.Program.Listings
import TokenTape.Proofs.Program.Files
import TokenTape.Proofs.Reading.BlockComment
import TokenTape.Proofs.Reading.CommentAsBlank
import TokenTape.Proofs.Scanner.CommentAsBlank
import TokenTape.Proofs.Vocabulary.Histories
import TokenTape.Proofs.Scanner.NumeralLiteral
import TokenTape.Proofs.Scanner.NewTexts
import TokenTape.Proofs.Scanner.FailedReplies
import TokenTape.Proofs.Scanner.EndOfInput
