import TikzChart.Gallery
import TikzChart.Main
import TikzChart.Proofs.Chart.History
import TikzChart.Proofs.Chart.LegendAgreement
import TikzChart.Proofs.Chart.LineDirection
import TikzChart.Proofs.Chart.Notes
import TikzChart.Proofs.Chart.Refusal
import TikzChart.Proofs.Chart.Saving
import TikzChart.Proofs.Chart.StyleHistory
import TikzChart.Proofs.CommandLine.DefaultTics
import TikzChart.Proofs.CommandLine.Ignoring
import TikzChart.Proofs.Data.Agreement
import TikzChart.Proofs.Data.Editing
import TikzChart.Proofs.Data.KeyValueGrammar
import TikzChart.Proofs.Data.Merging
import TikzChart.Proofs.Data.Normalization
import TikzChart.Proofs.Data.Rearrangement
import TikzChart.Proofs.Data.RoundTrip
import TikzChart.Proofs.Data.Sorting
import TikzChart.Proofs.Decimal.NumberText
import TikzChart.Proofs.Files.Page
import TikzChart.Proofs.Files.Pipeline
import TikzChart.Proofs.Layout.ExactBars
import TikzChart.Proofs.Layout.ExactScale
import TikzChart.Proofs.Layout.Tic
import TikzChart.Proofs.Layout.Walk
import TikzChart.Proofs.Picture.Operations
import TikzChart.Proofs.Text.Pieces
