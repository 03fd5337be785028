import DataTerms.Codec.Json
import DataTerms.Main
import DataTerms.Proofs.Codec.Agreement
import DataTerms.Proofs.Codec.Ceiling
import DataTerms.Proofs.Codec.Joining
import DataTerms.Proofs.Codec.Levels
import DataTerms.Proofs.Codec.Order
import DataTerms.Proofs.Codec.Pipeline
import DataTerms.Proofs.Codec.Plain
import DataTerms.Proofs.Codec.Stability
import DataTerms.Proofs.Codec.Text
import DataTerms.Proofs.Codec.Truncation
import DataTerms.Proofs.Command.Files
import DataTerms.Proofs.Command.Loop
import DataTerms.Proofs.Json.ReadBack
import DataTerms.Proofs.Term.Norm
import DataTerms.Proofs.Bytes.Order
import DataTerms.Proofs.Value.Encoding
import DataTerms.Proofs.Codec.Grammar
import DataTerms.Proofs.Text.Quoted
import DataTerms.Proofs.Value.Conversions
import DataTerms.Proofs.Path
import DataTerms.Proofs.Json.Places
import DataTerms.Proofs.Value.Rejection
import DataTerms.Proofs.Term.Replaced
import DataTerms.Proofs.Term.Locating
import DataTerms.Proofs.Term.Dump
import DataTerms.Proofs.Codec.OneLine
