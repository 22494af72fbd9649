import DistributedSql.Values
import DistributedSql.Rows
import DistributedSql.Expressions
import DistributedSql.JsonText
import DistributedSql.Base64
import DistributedSql.ScalarText
import DistributedSql.RuntimeFilter
import DistributedSql.ExceptState
import DistributedSql.RuntimeFilterCorrect
import DistributedSql.JoinBag
import DistributedSql.Memory
import DistributedSql.StableSort
import DistributedSql.ExternalSort
import DistributedSql.HashJoin
import DistributedSql.HashProbe
import DistributedSql.MergeJoin
import DistributedSql.HashJoinCorrect
import DistributedSql.Shuffle
import DistributedSql.JoinStrategy
import DistributedSql.DistributedJoin
import DistributedSql.WorkerRegistry
import DistributedSql.TaskProtocol
import DistributedSql.WorkerTasks
import DistributedSql.ExpressionTrees
import DistributedSql.LogicalPlans
import DistributedSql.PredicatePushdown
import DistributedSql.FailedRuns
import DistributedSql.AttemptStates
import DistributedSql.TaskScheduler
import DistributedSql.CoLocation
import DistributedSql.RepartitionJoin
import DistributedSql.PhysicalPlans
import DistributedSql.RemoteKeys
import DistributedSql.JoinKeys
import DistributedSql.Binder
import DistributedSql.FromClause
import DistributedSql.JoinKeySides
import DistributedSql.Grouping
import DistributedSql.Aggregation
import DistributedSql.ExpressionReads
import DistributedSql.AggregationBinding
import DistributedSql.WindowOperator
import DistributedSql.PartitionedEvaluation
import DistributedSql.Forests
import DistributedSql.MemoryTree
import DistributedSql.Catalog
import DistributedSql.DataImport
import DistributedSql.ImportAtomicity
import DistributedSql.PartitionMetadata
import DistributedSql.Coercions
import DistributedSql.Between
import DistributedSql.SortAggregate
import DistributedSql.AggregatePushdown
import DistributedSql.CostEstimation
import DistributedSql.CostBounds
import DistributedSql.SortMergeFallback
import DistributedSql.SortedRanks
import DistributedSql.WindowRanking
import DistributedSql.WindowFrames
import DistributedSql.DependencyOrder
import DistributedSql.StagePlanner
import DistributedSql.GroupingSets
import DistributedSql.ShuffleStore
import DistributedSql.ConstantFolding
import DistributedSql.Traversals
import DistributedSql.JoinReorder
import DistributedSql.PredicateMerge
import DistributedSql.RecordStores
import DistributedSql.QueryService
import DistributedSql.RewriteLoops
import DistributedSql.LocalOperators
import DistributedSql.ProjectionRules
import DistributedSql.RuleOptimizer
import DistributedSql.Generators
import DistributedSql.LocalExecution
import DistributedSql.ExchangeRuns
import DistributedSql.GroupFolds
import DistributedSql.PartialAggregation
import DistributedSql.EqualityInference
