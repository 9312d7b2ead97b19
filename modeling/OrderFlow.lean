import OrderFlow.Binary.Basic
import OrderFlow.Binary.Layout
import OrderFlow.Binary.Reader
import OrderFlow.Binary.Shortest
import OrderFlow.Calendar
import OrderFlow.Calendar.Instant
import OrderFlow.CommandLine.Arguments
import OrderFlow.CommandLine.Command
import OrderFlow.CommandLine.Perform
import OrderFlow.CommandLine.Reach
import OrderFlow.CommandLine.Run
import OrderFlow.Csv.Reader
import OrderFlow.Csv.Row
import OrderFlow.Decimal.Arithmetic
import OrderFlow.Decimal.Basic
import OrderFlow.Decimal.Text
import OrderFlow.Document.Books
import OrderFlow.Document.Records
import OrderFlow.Document.Scalar
import OrderFlow.Document.Trades
import OrderFlow.EnvironmentFile.Statement
import OrderFlow.EnvironmentFile.Value
import OrderFlow.Export.CandleTable
import OrderFlow.Failure
import OrderFlow.Feature.Column
import OrderFlow.Feature.Evaluation
import OrderFlow.Feature.FutureRange
import OrderFlow.Feature.Scaler
import OrderFlow.Feature.Windows
import OrderFlow.Files.Path
import OrderFlow.Files.Storing
import OrderFlow.Files.Tree
import OrderFlow.Forecast.Epoch
import OrderFlow.Forecast.Forecaster
import OrderFlow.Forecast.Forest.Basic
import OrderFlow.Forecast.Forest.Document
import OrderFlow.Forecast.Forest.Grow
import OrderFlow.Forecast.Forest.Training
import OrderFlow.Forecast.Kind
import OrderFlow.Forecast.Lstm.Basic
import OrderFlow.Forecast.Lstm.Gradient
import OrderFlow.Forecast.Lstm.Signal
import OrderFlow.Forecast.Lstm.Store
import OrderFlow.Forecast.Lstm.TensorFile
import OrderFlow.Forecast.Lstm.Training
import OrderFlow.Forecast.Prediction
import OrderFlow.Forecast.Training
import OrderFlow.Json.Number
import OrderFlow.Json.Printer
import OrderFlow.Json.Reader
import OrderFlow.Json.Value
import OrderFlow.Main
import OrderFlow.Market.Bucket
import OrderFlow.Market.Candle
import OrderFlow.Market.Depth
import OrderFlow.Market.DepthMerge
import OrderFlow.Market.Resample
import OrderFlow.Market.Series
import OrderFlow.Market.Timeframe
import OrderFlow.Market.Trade
import OrderFlow.Power
import OrderFlow.Proofs.Binary.Grid
import OrderFlow.Proofs.Binary.Nearest
import OrderFlow.Proofs.Binary.Neighbourhood
import OrderFlow.Proofs.Binary.Patterns
import OrderFlow.Proofs.Binary.Product
import OrderFlow.Proofs.Binary.Reading
import OrderFlow.Proofs.Binary.Shortest
import OrderFlow.Proofs.Binary.Texts
import OrderFlow.Proofs.Calendar
import OrderFlow.Proofs.Calendar.Instants
import OrderFlow.Proofs.CommandLine.Runs
import OrderFlow.Proofs.Csv.PlainRows
import OrderFlow.Proofs.Csv.RoundTrip
import OrderFlow.Proofs.Decimal.LongDivision
import OrderFlow.Proofs.Decimal.Nearest
import OrderFlow.Proofs.Decimal.Quotient
import OrderFlow.Proofs.Decimal.Sign
import OrderFlow.Proofs.Decimal.Sum
import OrderFlow.Proofs.Decimal.Texts
import OrderFlow.Proofs.Decimal.Value
import OrderFlow.Proofs.Document.Extraction
import OrderFlow.Proofs.Document.NullBooks
import OrderFlow.Proofs.Document.Nulls
import OrderFlow.Proofs.Document.QuotedNumbers
import OrderFlow.Proofs.Document.Readings
import OrderFlow.Proofs.Document.Records
import OrderFlow.Proofs.Document.TopLevels
import OrderFlow.Proofs.Document.Trades
import OrderFlow.Proofs.Export.CandleTables
import OrderFlow.Proofs.Failing
import OrderFlow.Proofs.Feature.ColumnLists
import OrderFlow.Proofs.Feature.FittedScalers
import OrderFlow.Proofs.Feature.FutureRange
import OrderFlow.Proofs.Feature.Horizons
import OrderFlow.Proofs.Feature.Matrix
import OrderFlow.Proofs.Feature.RangeSamples
import OrderFlow.Proofs.Feature.RowParts
import OrderFlow.Proofs.Feature.RowSamples
import OrderFlow.Proofs.Feature.RowWidths
import OrderFlow.Proofs.Feature.Scaling
import OrderFlow.Proofs.Feature.Windows
import OrderFlow.Proofs.Files.Directories
import OrderFlow.Proofs.Files.Growth
import OrderFlow.Proofs.Files.Parents
import OrderFlow.Proofs.Files.ProperTrees
import OrderFlow.Proofs.Files.Siblings
import OrderFlow.Proofs.Files.Standing
import OrderFlow.Proofs.Files.Steps
import OrderFlow.Proofs.Files.Writing
import OrderFlow.Proofs.Forecast.Adjacency
import OrderFlow.Proofs.Forecast.CleanRows
import OrderFlow.Proofs.Forecast.Fitting
import OrderFlow.Proofs.Forecast.ForestDocuments
import OrderFlow.Proofs.Forecast.ForestServing
import OrderFlow.Proofs.Forecast.LastWindow
import OrderFlow.Proofs.Forecast.LstmLearning
import OrderFlow.Proofs.Forecast.LstmShapes
import OrderFlow.Proofs.Forecast.Preparation
import OrderFlow.Proofs.Forecast.Reloading
import OrderFlow.Proofs.Forecast.Requests
import OrderFlow.Proofs.Forecast.Servable
import OrderFlow.Proofs.Forecast.Serving
import OrderFlow.Proofs.Forecast.TrainingRun
import OrderFlow.Proofs.Json.Arrangement
import OrderFlow.Proofs.Json.Floats
import OrderFlow.Proofs.Json.NumberTexts
import OrderFlow.Proofs.Json.Numbers
import OrderFlow.Proofs.Json.Records
import OrderFlow.Proofs.Json.RoundTrip
import OrderFlow.Proofs.Json.Strings
import OrderFlow.Proofs.Keyed
import OrderFlow.Proofs.Latest
import OrderFlow.Proofs.Lookup
import OrderFlow.Proofs.Market.Alignment
import OrderFlow.Proofs.Market.BookTimes
import OrderFlow.Proofs.Market.Buckets
import OrderFlow.Proofs.Market.Coherence
import OrderFlow.Proofs.Market.Conservation
import OrderFlow.Proofs.Market.Counting
import OrderFlow.Proofs.Market.DepthAsOf
import OrderFlow.Proofs.Market.ForwardFill
import OrderFlow.Proofs.Market.InputOrder
import OrderFlow.Proofs.Market.NoLookAhead
import OrderFlow.Proofs.Market.Offers
import OrderFlow.Proofs.Market.Periods
import OrderFlow.Proofs.Market.Refinement
import OrderFlow.Proofs.Market.Reordering
import OrderFlow.Proofs.Market.SeriesOutcome
import OrderFlow.Proofs.Market.Soundness
import OrderFlow.Proofs.Market.Starts
import OrderFlow.Proofs.Market.Times
import OrderFlow.Proofs.Market.Units
import OrderFlow.Proofs.Market.WeightedMean
import OrderFlow.Proofs.Market.Words
import OrderFlow.Proofs.Outcome
import OrderFlow.Proofs.Positions
import OrderFlow.Proofs.Settings.Assignments
import OrderFlow.Proofs.Settings.Layers
import OrderFlow.Proofs.Settings.Padding
import OrderFlow.Proofs.Store.Artifacts
import OrderFlow.Proofs.Store.DataSearch
import OrderFlow.Proofs.Store.Documents
import OrderFlow.Proofs.Store.Histories
import OrderFlow.Proofs.Store.Listings
import OrderFlow.Proofs.Store.Loading
import OrderFlow.Proofs.Store.Savings
import OrderFlow.Proofs.Store.Symbols
import OrderFlow.Proofs.Text.Blanks
import OrderFlow.Proofs.Text.Digits
import OrderFlow.Proofs.Text.Pieces
import OrderFlow.Proofs.Toml.Documents
import OrderFlow.Proofs.Toml.Tables
import OrderFlow.Proofs.Traversal
import OrderFlow.Random
import OrderFlow.Rounding
import OrderFlow.Settings.Basic
import OrderFlow.Settings.Environment
import OrderFlow.Settings.File
import OrderFlow.Store.History
import OrderFlow.Store.JsonFile
import OrderFlow.Store.MarketFiles
import OrderFlow.Store.Metadata
import OrderFlow.Store.Models
import OrderFlow.Text.Alphanumeric
import OrderFlow.Text.Blank
import OrderFlow.Text.Case
import OrderFlow.Text.Digits
import OrderFlow.Toml.Moment
import OrderFlow.Toml.Reader
import OrderFlow.Toml.Value
import OrderFlow.Word
