import NeuralBuilder.Library.Checked
import NeuralBuilder.Library.Grid
import NeuralBuilder.Library.Runs
import NeuralBuilder.Library.ReverseMode
import NeuralBuilder.Library.Chunks
import NeuralBuilder.Library.Standardise
import NeuralBuilder.Library.HalfSpaces
import NeuralBuilder.Library.Scan
import NeuralBuilder.Library.Decimal
import NeuralBuilder.Double
import NeuralBuilder.MathUtils
import NeuralBuilder.Activation
import NeuralBuilder.RealActivation
import NeuralBuilder.Loss
import NeuralBuilder.NeuralNetwork
import NeuralBuilder.DenseLayer
import NeuralBuilder.DenseParams
import NeuralBuilder.Network
import NeuralBuilder.Building
import NeuralBuilder.Draws
import NeuralBuilder.Training
import NeuralBuilder.TrainingJobs
import NeuralBuilder.Inference
import NeuralBuilder.Gradient
import NeuralBuilder.Backpropagation
import NeuralBuilder.RealLoss
import NeuralBuilder.TrainingStep
import NeuralBuilder.SoftmaxGradient
import NeuralBuilder.WeightDecay
import NeuralBuilder.DropoutGradient
import NeuralBuilder.Classification
import NeuralBuilder.Normalization
import NeuralBuilder.StandardFeatures
import NeuralBuilder.FeatureUnits
import NeuralBuilder.RValue
import NeuralBuilder.Compile
import NeuralBuilder.TrainingMessage
import NeuralBuilder.MiniBatches
import NeuralBuilder.EpochMetrics
import NeuralBuilder.WebSocket
import NeuralBuilder.SharedNetwork
import NeuralBuilder.Ownership
import NeuralBuilder.Pairing
import NeuralBuilder.BatchMean
import NeuralBuilder.Resume
import NeuralBuilder.FusedForward
import NeuralBuilder.ModelInfo
import NeuralBuilder.ProcessPage
import NeuralBuilder.TruthfulFlags
import NeuralBuilder.WireFormat
import NeuralBuilder.SaveLoad
import NeuralBuilder.SavedFlag
import NeuralBuilder.ConfirmedDelete
import NeuralBuilder.EditedList
import NeuralBuilder.Overloads
import NeuralBuilder.Probabilities
import NeuralBuilder.OneHot
import NeuralBuilder.ClipLine
import NeuralBuilder.Uploads
import NeuralBuilder.CsvUpload
import NeuralBuilder.ReleasedFlags
import NeuralBuilder.EpochMessage
import NeuralBuilder.HyperParameterSearch
import NeuralBuilder.KernelLaws
import NeuralBuilder.KernelGuards
import NeuralBuilder.ColumnMeans
import NeuralBuilder.ValidationCost
import NeuralBuilder.IllegalLabels
import NeuralBuilder.Library.Linearizable
import NeuralBuilder.Library.Frames
import NeuralBuilder.CrowConnection
import NeuralBuilder.Delivery
import NeuralBuilder.AuthRoutes
import NeuralBuilder.Accounts
import NeuralBuilder.LostRegistration
import NeuralBuilder.ModelsServer
import NeuralBuilder.Sessions
import NeuralBuilder.Library.JsonGrammar
import NeuralBuilder.Library.JsonUnambiguous
import NeuralBuilder.Library.Numeral
import NeuralBuilder.Library.GeneralNotation
import NeuralBuilder.JsonNumber
import NeuralBuilder.JsonLoad
import NeuralBuilder.JsonStandard
import NeuralBuilder.JsonPrint
import NeuralBuilder.JsonDump
import NeuralBuilder.JsonDouble
