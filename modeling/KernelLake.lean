import KernelLake.Library.Doubles
import KernelLake.Library.IntegerDoubles
import KernelLake.Library.DoubleSigns
import KernelLake.Library.Relations
import KernelLake.Library.Results
import KernelLake.Library.StableSort
import KernelLake.Library.Texts
import KernelLake.Types
import KernelLake.Expressions
import KernelLake.Evaluation
import KernelLake.LogicalPlans
import KernelLake.PlanSemantics
import KernelLake.Simplification
import KernelLake.SimplificationProofs
import KernelLake.Optimizer
import KernelLake.ColumnProofs
import KernelLake.RewriteProofs
import KernelLake.RewriteFuel
import KernelLake.RewriteTermination
import KernelLake.RewriteNormalForm
import KernelLake.Pruning
import KernelLake.PruningProofs
import KernelLake.Comparisons
import KernelLake.Pushdown
import KernelLake.SortProofs
import KernelLake.ScanAnnotation
import KernelLake.Statistics
import KernelLake.StatisticsProofs
import KernelLake.PhysicalPlans
import KernelLake.PhysicalPlanner
import KernelLake.RemapProofs
import KernelLake.Layouts
import KernelLake.ScanSelection
import KernelLake.PhysicalPlannerProofs
import KernelLake.SqlAst
import KernelLake.ExpressionText
import KernelLake.Binder
import KernelLake.QueryBinding
import KernelLake.LogicalPlanner
import KernelLake.BoundTypes
import KernelLake.BindingProofs
import KernelLake.QueryBindingProofs
import KernelLake.JoinBinding
import KernelLake.BoundQueryTypes
import KernelLake.EvaluationTypes
import KernelLake.SimplificationErrors
import KernelLake.PlannedRows
import KernelLake.AggregatePlanning
import KernelLake.RequiredColumns
import KernelLake.ConversionSuccess
import KernelLake.ReferenceProofs
import KernelLake.PlannedColumns
import KernelLake.KeyTrees
import KernelLake.KeyReading
import KernelLake.KeyValues
import KernelLake.Library.Calendar
import KernelLake.PartitionTransforms
import KernelLake.IcebergManifests
import KernelLake.PartitionPruning
import KernelLake.PartitionPruningProofs
import KernelLake.IcebergResolution
import KernelLake.IcebergResolutionProofs
import KernelLake.Library.Grouping
import KernelLake.HashAggregation
import KernelLake.HashAggregationProofs
import KernelLake.Library.Pulling
import KernelLake.Library.PartitionedJoins
import KernelLake.GpuJoins
import KernelLake.GpuJoinProofs
import KernelLake.JoinBackends
import KernelLake.AggregateBackends
import KernelLake.ExpressionCompilers
import KernelLake.ExpressionCompilerProofs
import KernelLake.Library.Interleavings
import KernelLake.Library.Registries
import KernelLake.NvmeObjectCache
import KernelLake.NvmeCacheLocks
import KernelLake.NvmeCacheFiles
import KernelLake.NvmeCacheAccounting
import KernelLake.NvmeCacheContents
import KernelLake.FlightSqlServer
import KernelLake.FlightSqlCapacity
import KernelLake.FlightSqlHandles
import KernelLake.UnityCatalogTokens
import KernelLake.UnityCatalogTokenProofs
import KernelLake.BindingTallies
import KernelLake.GroupingCheck
import KernelLake.Library.Decimals
import KernelLake.BindingSteps
import KernelLake.ImplicitCasts
import KernelLake.CastWidening
import KernelLake.PartitionedScans
import KernelLake.PartitionedScanProofs
import KernelLake.Library.DoubleValues
import KernelLake.SubqueryResolution
import KernelLake.SubqueryReplacement
import KernelLake.SubqueryResolutionProofs
import KernelLake.DecimalComparisons
import KernelLake.GlobMatching
import KernelLake.DeltaPartitionValues
import KernelLake.FileDiscovery
import KernelLake.FileDiscoveryProofs
import KernelLake.OverlappingSources
import KernelLake.TableResolutionProofs
import KernelLake.FlightSqlFailures
import KernelLake.GpuFilterConjuncts
import KernelLake.GpuFilterProofs
import KernelLake.GroupLimits
import KernelLake.ScalarAggregateProofs
import KernelLake.Library.Replacement
import KernelLake.SourceCallProofs
import KernelLake.SourceResolution
import KernelLake.SourceResolutionProofs
import KernelLake.IndexRewriting
import KernelLake.AggregateConfinement
import KernelLake.UnqualifiedNames
import KernelLake.Library.Evictions
import KernelLake.NvmeEviction
import KernelLake.AggregateInputNames
import KernelLake.GpuJoinLoads
import KernelLake.BatchOperators
import KernelLake.ScanPrefetch
import KernelLake.Library.Utf8
import KernelLake.Library.JsonTexts
import KernelLake.ResultFormatter
import KernelLake.Library.LinkedPaths
import KernelLake.LocalConfinement
import KernelLake.Library.CalendarDates
import KernelLake.CalendarArithmetic
import KernelLake.Library.DoubleBounds
import KernelLake.DecimalComparisonProofs
import KernelLake.JoinConditions
import KernelLake.Nullability
import KernelLake.NullSources
import KernelLake.NullableFlags
import KernelLake.ExistsRewriting
import KernelLake.ExistsRewritingProofs
import KernelLake.GpuDispatch
import KernelLake.GpuMemoryMetrics
import KernelLake.DecimalLiterals
import KernelLake.OptimizedResults
import KernelLake.CompiledStatements
import KernelLake.ScalarDecorrelation
import KernelLake.CorrelationKeys
import KernelLake.DerivedTables
import KernelLake.CorrelatedValues
import KernelLake.ScalarDecorrelationProofs
