import EditionSurvey.Main
import EditionSurvey.Proofs.Announcing
import EditionSurvey.Proofs.Confinement
import EditionSurvey.Proofs.Copies
import EditionSurvey.Proofs.Delivery
import EditionSurvey.Proofs.Dependence
import EditionSurvey.Proofs.DepthFirst
import EditionSurvey.Proofs.Editions
import EditionSurvey.Proofs.Peers
import EditionSurvey.Proofs.Readable
import EditionSurvey.Proofs.Rewriting
import EditionSurvey.Proofs.Threshold
import EditionSurvey.Proofs.Examination
import EditionSurvey.Proofs.Probes
import EditionSurvey.Proofs.Grammar.Account
import EditionSurvey.Proofs.Grammar.Binding
import EditionSurvey.Proofs.Grammar.Expression
import EditionSurvey.Proofs.Grammar.Program
import EditionSurvey.Proofs.TrailingComma
import EditionSurvey.Proofs.NewerForms
import EditionSurvey.Proofs.Requests
import EditionSurvey.Proofs.Listings
import EditionSurvey.Proofs.Printing
import EditionSurvey.Proofs.Discovery
import EditionSurvey.Proofs.Targets
import EditionSurvey.Proofs.Reasons
import EditionSurvey.Proofs.LineEnds
import EditionSurvey.Proofs.Table
import EditionSurvey.Proofs.Columns
import EditionSurvey.Proofs.Contents
import EditionSurvey.Proofs.Exports
